import Knot.Demo

/-!
Keeping settings over a whole session. Whatever happens to the sources in between, the settings that are
kept are those of the first sources that loaded well since the cache was cleared, and always as the same
object. What does not load well leaves nothing behind.
-/

namespace Knot.Settings

/-- The sources with a variable of the environment set, or taken out. -/
def Sources.setVariable (sources : Sources) (name : String) : Option String → Sources
  | some text => { sources with environment := sources.environment.assign name text }
  | none => { sources with environment := sources.environment.erase name }

/-- What a session does with settings. -/
inductive Act where
  | setVariable (name : String) (text : Option String)
  | setFile (file : Option String)
  | clear
  /-- The kept settings are asked for. -/
  | get
  /-- A demonstration is run that is given no settings. -/
  | demonstrate
  /-- Settings are made of arguments. -/
  | make (arguments : Bindings String Value)

/-- The cache after one step. -/
def Cache.next (cache : Cache) : Act → Cache
  | .setVariable name text => cache.setVariable name text
  | .setFile file => cache.setFile file
  | .clear => cache.clear
  | .get => cache.get.2
  | .demonstrate => (Demo.chosen cache none).2
  | .make arguments => (cache.make arguments).2

/-- The cache after some steps. -/
def Cache.after (cache : Cache) (acts : List Act) : Cache := acts.foldl Cache.next cache

/-! What was done, told without a cache. -/

/-- The sources as they are now, and as they were each time that the kept settings were asked for since
the last clearing. -/
structure Past where
  sources : Sources
  asked : List Sources := []

namespace Past

def next (past : Past) : Act → Past
  | .setVariable name text => { past with sources := past.sources.setVariable name text }
  | .setFile file => { past with sources := { past.sources with file } }
  | .clear => { past with asked := [] }
  | .get | .demonstrate => { past with asked := past.asked ++ [past.sources] }
  | .make _ => past

def after (past : Past) (acts : List Act) : Past := acts.foldl next past

end Past

/-- The settings of the first sources that load well. -/
def firstLoaded? (asked : List Sources) : Option Settings :=
  asked.findSome? fun sources => (load [] sources).toOption

theorem firstLoaded?_append (asked : List Sources) (sources : Sources) :
    firstLoaded? (asked ++ [sources]) = (firstLoaded? asked).or (load [] sources).toOption := by
  unfold firstLoaded?
  rw [List.findSome?_append, List.findSome?_cons]
  cases (load [] sources).toOption <;> rfl

/-- A cache that came about as the past tells. -/
structure Cache.Follows (cache : Cache) (past : Past) : Prop where
  sources : cache.sources = past.sources
  kept : cache.kept.map (·.settings) = firstLoaded? past.asked
  serial : ∀ loaded, cache.kept = some loaded → loaded.serial < cache.made

namespace Cache

variable {cache : Cache} {past : Past}

theorem setVariable_sources (cache : Cache) (name : String) (text : Option String) :
    (cache.setVariable name text).sources = cache.sources.setVariable name text := by
  cases text <;> rfl

theorem make_kept (cache : Cache) (arguments : Bindings String Value) :
    (cache.make arguments).2.kept = cache.kept := by
  unfold make
  split <;> rfl

theorem make_sources (cache : Cache) (arguments : Bindings String Value) :
    (cache.make arguments).2.sources = cache.sources := by
  unfold make
  split <;> rfl

theorem made_le_make (cache : Cache) (arguments : Bindings String Value) :
    cache.made ≤ (cache.make arguments).2.made := by
  unfold make
  split
  · exact Nat.le_succ _
  · exact Nat.le_refl _

/-- Where nothing is kept, the sources are loaded, and what loads well is kept. -/
theorem get_of_none_ok {settings : Settings} (nothing : cache.kept = none)
    (loads : load [] cache.sources = .ok settings) :
    cache.get = (.ok ⟨cache.made, settings⟩,
      { cache with kept := some ⟨cache.made, settings⟩, made := cache.made + 1 }) := by
  simp [get, make, nothing, loads]

theorem get_of_none_error {complaints : List Complaint} (nothing : cache.kept = none)
    (fails : load [] cache.sources = .error complaints) : cache.get = (.error complaints, cache) := by
  simp [get, make, nothing, fails]

/-- What is asked for does not depend on who asks. -/
theorem chosen_eq_get (cache : Cache) :
    Demo.chosen cache none = (cache.get.1.map (·.settings), cache.get.2) := rfl

namespace Follows

variable (follows : cache.Follows past)
include follows

/-- The kept settings are those of the first sources that loaded well, these included. -/
theorem get : cache.get.2.Follows { past with asked := past.asked ++ [past.sources] } := by
  cases kept : cache.kept with
  | some loaded =>
      have first : firstLoaded? past.asked = some loaded.settings := by
        rw [← follows.kept, kept]
        rfl
      rw [get_of_kept kept]
      refine ⟨follows.sources, ?_, follows.serial⟩
      rw [firstLoaded?_append, first, kept]
      rfl
  | none =>
      have nothing : firstLoaded? past.asked = none := by
        rw [← follows.kept, kept]
        rfl
      have now : firstLoaded? (past.asked ++ [past.sources]) = (load [] cache.sources).toOption := by
        rw [firstLoaded?_append, nothing, ← follows.sources]
        rfl
      cases loads : load [] cache.sources with
      | ok settings =>
          rw [get_of_none_ok kept loads]
          refine ⟨follows.sources, ?_, ?_⟩
          · rw [now, loads]
            rfl
          · intro loaded same
            cases same
            exact Nat.lt_succ_self _
      | error complaints =>
          rw [get_of_none_error kept loads]
          refine ⟨follows.sources, ?_, follows.serial⟩
          rw [now, loads, kept]
          rfl

/-- What one step keeps. -/
theorem next (act : Act) : (cache.next act).Follows (past.next act) := by
  cases act with
  | setVariable name text =>
      refine ⟨?_, follows.kept, follows.serial⟩
      rw [Cache.next, setVariable_sources, follows.sources]
      rfl
  | setFile file =>
      refine ⟨?_, follows.kept, follows.serial⟩
      simp only [Cache.next, setFile, Past.next, follows.sources]
  | clear => exact ⟨follows.sources, rfl, nofun⟩
  | get => exact follows.get
  | demonstrate => exact follows.get
  | make arguments =>
      refine ⟨?_, ?_, ?_⟩
      · exact (make_sources cache arguments).trans follows.sources
      · exact (congrArg _ (make_kept cache arguments)).trans follows.kept
      · intro loaded kept
        have before : cache.kept = some loaded := (make_kept cache arguments).symm.trans kept
        exact Nat.lt_of_lt_of_le (follows.serial loaded before) (made_le_make cache arguments)

/-- What all steps keep. -/
theorem after (acts : List Act) : (cache.after acts).Follows (past.after acts) := by
  induction acts generalizing cache past with
  | nil => exact follows
  | cons act acts ih => exact ih (follows.next act)

end Follows

/-- Until it is cleared, a cache keeps what it keeps. -/
theorem kept_after {loaded : Loaded} (kept : cache.kept = some loaded) {acts : List Act}
    (uncleared : ∀ act ∈ acts, act ≠ .clear) : (cache.after acts).kept = some loaded := by
  induction acts generalizing cache with
  | nil => exact kept
  | cons act acts ih =>
      apply ih _ fun act member => uncleared act (List.mem_cons_of_mem _ member)
      have step : act ≠ .clear := uncleared act (List.mem_cons_self ..)
      cases act with
      | setVariable | setFile => exact kept
      | clear => exact absurd rfl step
      | get => rw [next, get_of_kept kept, kept]
      | demonstrate => rw [next, chosen_eq_get, get_of_kept kept, kept]
      | make arguments => exact (make_kept cache arguments).trans kept

end Cache

/-- What a call for the kept settings gives after some steps. -/
structure KeepsFirst (sources : Sources) (acts : List Act) (cache : Cache) (past : Past) : Prop where
  /-- The settings of the first sources that loaded well since the last clearing, these included. -/
  first : ∀ settings, firstLoaded? (past.asked ++ [past.sources]) = some settings →
    ∃ serial, cache.get.1 = .ok ⟨serial, settings⟩
  /-- Or else what is wrong with the sources as they are, and nothing is kept of that. -/
  fails : firstLoaded? (past.asked ++ [past.sources]) = none →
    ∃ complaints, load [] past.sources = .error complaints ∧ cache.get = (.error complaints, cache)
  /-- It is the same object until the next clearing. -/
  same : ∀ loaded, cache.get.1 = .ok loaded → ∀ more, (∀ act ∈ more, act ≠ .clear) →
    (cache.get.2.after more).get = (.ok loaded, cache.get.2.after more)
  /-- Settings made of arguments are other objects, whatever is kept, and are not kept. -/
  apart : ∀ arguments, (cache.make arguments).2.kept = cache.kept ∧
    (∀ kept, (Cache.make { cache with kept } arguments).1 = (cache.make arguments).1) ∧
    ((cache.make arguments).1.map (·.settings)) = load arguments past.sources ∧
    ∀ loaded other, cache.get.1 = .ok loaded → (cache.get.2.make arguments).1 = .ok other →
      other.serial ≠ loaded.serial
  /-- A demonstration without settings runs with what such a call gives, and leaves behind what it leaves. -/
  demonstrated : ∀ k rest, Demo.runs k cache (none :: rest) =
    match cache.get.1 with
    | .ok loaded => do
        let results ← Demo.run k loaded.settings
        return (← Demo.runs k cache.get.2 rest).map (results :: ·)
    | .error complaints => return .error complaints

namespace Cache.Follows

variable {cache : Cache} {past : Past} (follows : cache.Follows past)
include follows

theorem get_first {settings : Settings} (first : firstLoaded? (past.asked ++ [past.sources]) = some settings) :
    ∃ serial, cache.get.1 = .ok ⟨serial, settings⟩ := by
  have later := follows.get.kept
  dsimp only at later
  rw [first] at later
  obtain ⟨loaded, kept, rfl⟩ := Option.map_eq_some_iff.mp later
  refine ⟨loaded.serial, ?_⟩
  cases before : cache.kept with
  | some held =>
      rw [get_of_kept before] at kept ⊢
      rw [before] at kept
      cases kept
      rfl
  | none =>
      cases loads : load [] cache.sources with
      | ok settings =>
          rw [get_of_none_ok before loads] at kept ⊢
          cases kept
          rfl
      | error complaints =>
          rw [get_of_none_error before loads, before] at kept
          cases kept

theorem get_fails (nothing : firstLoaded? (past.asked ++ [past.sources]) = none) :
    ∃ complaints, load [] past.sources = .error complaints ∧ cache.get = (.error complaints, cache) := by
  rw [firstLoaded?_append, Option.or_eq_none_iff] at nothing
  obtain ⟨before, now⟩ := nothing
  have kept : cache.kept = none := by
    rw [← follows.kept, Option.map_eq_none_iff] at before
    exact before
  rw [← follows.sources] at now ⊢
  cases fails : load [] cache.sources with
  | ok settings =>
      rw [fails] at now
      cases now
  | error complaints => exact ⟨complaints, rfl, get_of_none_error kept fails⟩

theorem make_map (arguments : Bindings String Value) :
    (cache.make arguments).1.map (·.settings) = load arguments past.sources := by
  unfold make
  rw [follows.sources]
  cases load arguments past.sources <;> rfl

/-- What is made is no object that is kept. -/
theorem make_apart {arguments : Bindings String Value} {loaded other : Loaded} (kept : cache.kept = some loaded)
    (made : (cache.make arguments).1 = .ok other) : other.serial ≠ loaded.serial := by
  have before := follows.serial loaded kept
  unfold make at made
  split at made
  · cases made
    exact Nat.ne_of_gt before
  · cases made

end Cache.Follows

/-- Whatever a session did before, a call for the kept settings gives those of the first sources that loaded
well since the last clearing, and always one object; what does not load well is not kept. -/
theorem session_keeps_first (sources : Sources) (acts : List Act) :
    KeepsFirst sources acts (Cache.after { sources } acts) (Past.after { sources } acts) := by
  have start : Cache.Follows { sources } { sources } := ⟨rfl, rfl, nofun⟩
  have follows := start.after acts
  generalize Cache.after { sources } acts = cache at follows ⊢
  generalize Past.after { sources } acts = past at follows ⊢
  constructor
  · intro settings first
    exact follows.get_first first
  · intro nothing
    exact follows.get_fails nothing
  · intro loaded found more uncleared
    exact Cache.get_of_kept (Cache.kept_after (Cache.kept_get_of_ok found) uncleared)
  · intro arguments
    refine ⟨Cache.make_kept cache arguments, ?_, follows.make_map arguments, ?_⟩
    · intro kept
      unfold Cache.make
      cases load arguments cache.sources <;> rfl
    · intro loaded other found made
      exact follows.get.make_apart (Cache.kept_get_of_ok found) made
  · intro k rest
    rw [Demo.runs, Cache.chosen_eq_get]
    cases cache.get.1 <;> rfl

end Knot.Settings
