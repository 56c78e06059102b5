import Knot.Proofs.Demo.CalculusRecursion
import Knot.Proofs.Demo.Checking
import Knot.Proofs.Demo.Exhaustion
import Knot.Proofs.Settings.Loading

/-!
The demonstration as a whole. Every combinator computes what plain recursion does, every check passes,
and the function without a base case fills the stack. What there was before is then as it was, so the
next demonstration, with whatever settings, finds what the first one found.
-/

namespace Knot

open Run Store

/-- A session in which nothing is recorded that was not made, and whose outermost environment binds the
combinator that it started with. -/
structure Store.Ready (s : Store) : Prop where
  fresh : s.Fresh
  original : s.Original
  unmarked : s.table? 0 = none

namespace Store.Ready

variable {s t : Store}

theorem later (ready : s.Ready) (quiet : Quiet s t) : t.Ready where
  fresh := quiet.fresh ready.fresh
  original := ready.original.later ready.fresh quiet.beneath
  unmarked := table?_later quiet ready.unmarked

theorem printed (ready : s.Ready) (text : String) : (s.printed text).Ready where
  fresh := { ready.fresh with }
  original := { ready.original with }
  unmarked := ready.unmarked

end Store.Ready

/-- What an earlier store held is as it was, and a text was printed since. -/
structure Store.Tidy (s t : Store) (text : String) : Prop where
  quiet : Quiet s { t with out := s.out }
  out : t.out = s.out ++ text

namespace Store.Tidy

variable {s t u : Store} {text text' : String}

theorem refl (s : Store) : Tidy s s "" := ⟨.refl s, String.append_empty.symm⟩

theorem trans (first : Tidy s t text) (second : Tidy t u text') : Tidy s u (text ++ text') where
  quiet := by
    have later : Quiet { t with out := s.out } { u with out := s.out } :=
      { second.quiet with
        rest := congrArg (fun u : Store => { u with out := s.out }) second.quiet.rest
        fresh := fun new => { second.quiet.fresh { new with } with } }
    exact first.quiet.trans later
  out := by rw [second.out, first.out, String.append_assoc]

theorem of_quiet (quiet : Quiet s t) : Tidy s t "" where
  quiet := by
    rw [← quiet.out]
    exact quiet
  out := by rw [quiet.out, String.append_empty]

theorem printed (s : Store) (text : String) : Tidy s (s.printed text) text := ⟨.refl s, rfl⟩

theorem stack (tidy : Tidy s t text) : t.stack = s.stack := tidy.quiet.stack

end Store.Tidy

namespace Demo

/-- Settings that a session has room for: for the factorial of the calculus, which takes two levels of
calls for each number, and for the plain Fibonacci number; and a limit for the unfolding that can be set. -/
structure Fits (stack : Stack) (room : Nat) (settings : Settings) : Prop where
  floored : settings.Floored
  recursion : stack.depth + max 21 (2 * settings.demoN.toNat + 8) ≤ min room stack.limit
  ceiling : stack.depth + 1 + settings.exhaustionHeadroom < Word.shortEnd

/-- The results of the computations, of a number. -/
def computed (n : Nat) : Results :=
  [(s!"Y {toString (n : Int)}!", .int n.factorial), (fibonacciLabel, .int (Nat.fib 20)),
    (s!"yc {toString (n : Int)}!", .int n.factorial), (s!"Υ {toString (n : Int)}!", .int n.factorial),
    (s!"untyped {toString (n : Int)}!", .int n.factorial)]

/-- The results of a demonstration. -/
def expected (stack : Stack) (room : Nat) (settings : Settings) : Results :=
  computed settings.demoN.toNat ++
    [("no base case", .str (exhaustionText (derivationsWithin
      (levelsUnder room (stack.depth + 1) settings.exhaustionHeadroom.toNat))))]

section

variable {s : Store} {k : Machine}

/-- A fixed point is built and then applied. -/
theorem applyFixedPoint_yields {combinator generator : Builtin} {F : Value → Prop} {n : Value} {v : Value}
    (builds : Gives (call k combinator [.builtin generator]) s fun g _ => F g)
    (applies : ∀ g t, Quiet s t → F g → Yields (k.app g [n]) t v) :
    Yields (applyFixedPoint k combinator generator n) s v :=
  builds.bind fun g t quiet holds => applies g t quiet holds

theorem compute_yields {n : Nat} (ready : s.Ready) (short : (n : Int) < Word.shortEnd)
    (affords : Affords (max 21 (2 * n + 8)) k s) : Yields (compute k n) s (computed n) := by
  have written : integerText n = .ok (toString (n : Int)) := by
    refine integerText_of_small ?_
    unfold Word.shortEnd at short
    omega
  have room {levels : Nat} (less : levels ≤ max 21 (2 * n + 8)) (t : Store) (quiet : Quiet s t) :
      Affords levels k t := (affords.later quiet).less less
  have thunked (t : Store) (quiet : Quiet s t) :
      Yields (applyFixedPoint k .fixedPoint .factorialGenerator (.int n)) t (.int n.factorial) := by
    refine applyFixedPoint_yields (build_gives rfl (room (by omega) t quiet)) ?_
    rintro g u later ⟨mark, thunk, rfl⟩
    exact factorialGenerator_computes mark thunk n k u (room (by dsimp only; omega) u (quiet.trans later))
  have fibonacci (t : Store) (quiet : Quiet s t) :
      Yields (applyFixedPoint k .fixedPoint .fibonacciGenerator (.int 20)) t (.int (Nat.fib 20)) := by
    refine applyFixedPoint_yields (build_gives rfl (room (by omega) t quiet)) ?_
    rintro g u later ⟨mark, thunk, rfl⟩
    exact fibonacciGenerator_computes mark thunk 20 k u (room (by dsimp only; omega) u (quiet.trans later))
  have selfApplied (t : Store) (quiet : Quiet s t) :
      Yields (applyFixedPoint k .selfFixedPoint .factorialCode (.int n)) t (.int n.factorial) := by
    refine applyFixedPoint_yields (selfFixedPoint_gives (room (by omega) t quiet)) ?_
    rintro g u later ⟨mark, delay, root, rfl⟩
    exact factorialCode_computes mark delay root n k u (room (by dsimp only; omega) u (quiet.trans later))
  have schemulated (t : Store) (quiet : Quiet s t) :
      Yields (call k .schemulatedFactorial [.int n]) t (.int n.factorial) :=
    let there := ready.later quiet
    Calculus.schemulatedFactorial_yields n there.original there.fresh (room (by omega) t quiet)
  have untyped (t : Store) (quiet : Quiet s t) :
      Yields (call k .untypedFactorial [.int n]) t (.int n.factorial) :=
    untypedFactorial_computes n k t (room (by dsimp only; omega) t quiet)
  unfold compute
  rw [written]
  refine Gives.bind (P := fun shown _ => shown = toString (n : Int)) (.same rfl rfl) ?_
  rintro shown s₁ q₁ rfl
  refine (thunked s₁ q₁).bind ?_
  rintro y s₂ q₂ rfl
  refine (fibonacci s₂ (q₁.trans q₂)).bind ?_
  rintro fib s₃ q₃ rfl
  refine (selfApplied s₃ (q₁.trans (q₂.trans q₃))).bind ?_
  rintro yc s₄ q₄ rfl
  refine (schemulated s₄ (q₁.trans (q₂.trans (q₃.trans q₄)))).bind ?_
  rintro upsilon s₅ q₅ rfl
  refine (untyped s₅ (q₁.trans (q₂.trans (q₃.trans (q₄.trans q₅))))).bind ?_
  rintro untyped s₆ q₆ rfl
  exact .pure rfl

end

theorem lookup_of_forall {results : Results} {label : String} {v : Value} (member : label ∈ results.map (·.1))
    (all : ∀ entry ∈ results, entry.1 = label → entry.2 = v) : results.lookup label = some v := by
  induction results with
  | nil => cases member
  | cons entry rest ih =>
      obtain ⟨key, w⟩ := entry
      rw [List.lookup_cons]
      by_cases here : label = key
      · have value : w = v := all (key, w) (by simp) here.symm
        simp [here, value]
      · have apart : (label == key) = false := by simpa using here
        rw [apart]
        refine ih ?_ fun entry inside => all entry (by simp [inside])
        simpa [here] using member

/-- The labels of factorials end in another way than the one of the Fibonacci number. -/
theorem fibonacciLabel_not_mem (n : String) : fibonacciLabel ∉ factorialLabels n := by
  intro member
  have ending : ∀ label ∈ factorialLabels n, label.toList.getLast? = some '!' := by
    simp [factorialLabels, toString, List.getLast?_cons]
  have last := ending _ member
  revert last
  decide +kernel

theorem computed_factorials (n : Nat) :
    ∀ label ∈ factorialLabels (toString (n : Int)), (computed n).lookup label = some (.int n.factorial) := by
  intro label member
  refine lookup_of_forall ?_ ?_
  · simp [factorialLabels, computed] at member ⊢
    rcases member with rfl | rfl | rfl | rfl <;> simp
  · intro entry inside same
    have apart : entry.1 ≠ fibonacciLabel := by
      rintro fibonacci
      exact fibonacciLabel_not_mem _ (fibonacci ▸ same ▸ member)
    simp only [computed, List.mem_cons, List.not_mem_nil, or_false] at inside
    rcases inside with rfl | rfl | rfl | rfl | rfl
    · rfl
    · exact absurd rfl apart
    · rfl
    · rfl
    · rfl

theorem computed_fibonacci (n : Nat) : (computed n).lookup fibonacciLabel = some (.int (Nat.fib 20)) := by
  refine lookup_of_forall (by simp [computed]) ?_
  intro entry inside same
  have apart : entry.1 ∉ factorialLabels (toString (n : Int)) := same ▸ fibonacciLabel_not_mem _
  simp only [computed, List.mem_cons, List.not_mem_nil, or_false] at inside
  rcases inside with rfl | rfl | rfl | rfl | rfl
  · exact absurd (by simp [factorialLabels]) apart
  · rfl
  · exact absurd (by simp [factorialLabels]) apart
  · exact absurd (by simp [factorialLabels]) apart
  · exact absurd (by simp [factorialLabels]) apart

/-- Filling the stack from a program takes one level more. -/
theorem blownStack_yields {s : Store} {n room frames : Nat} (new : s.Fresh) (given : s.stack.room = some room)
    (fuel : room < n) (affords : s.stack.depth + 3 ≤ min room s.stack.limit) (positive : 0 < frames)
    (short : ((s.stack.depth + 1 + frames : Nat) : Int) < Word.shortEnd) :
    Yields (call (.ofFuel (n + 1)) .blownStack [.int frames]) s
      (.str (exhaustionText (derivationsWithin (levelsUnder room (s.stack.depth + 1) frames)))) := by
  have counted : s.stack.room.isNone = false := by
    rw [given]
    rfl
  have full : s.stack.full = false := by
    rw [Stack.full, given]
    exact decide_eq_false (by omega)
  have inner := blowStack_yields (s := s.inside) (new.atDepth _) given fuel affords positive short
  exact deeper_gives counted full (steady_value _) inner

/-- A session that demonstrations can run in: there is room for some calls, and fuel for all of them. -/
structure Hosts (fuel room : Nat) (s : Store) : Prop where
  ready : s.Ready
  given : s.stack.room = some room
  enough : room + 1 < fuel
  short : (room : Int) < Word.shortEnd

/-- A demonstration ends with its results, prints its summary if it is to, and leaves no other trace. -/
theorem run_ends {fuel room : Nat} {s : Store} {settings : Settings} (hosts : Hosts fuel room s)
    (fits : Fits s.stack room settings) :
    ∃ t, run (.ofFuel fuel) settings s = .ok (expected s.stack room settings) t ∧
      Tidy s t (printed settings.trace) ∧ t.Ready := by
  obtain ⟨ready, given, fuel', short⟩ := hosts
  obtain ⟨floored, recursion, ceiling⟩ := fits
  obtain ⟨n, natural⟩ := Int.eq_ofNat_of_zero_le floored.demoN
  obtain ⟨frames, headroom⟩ := Int.eq_ofNat_of_zero_le (le_trans (by decide) floored.exhaustionHeadroom)
  obtain ⟨m, rfl⟩ : ∃ m, fuel = m + 1 := ⟨fuel - 1, by omega⟩
  have floor := floored.exhaustionHeadroom
  rw [natural, Int.toNat_natCast] at recursion
  have affords : Affords (max 21 (2 * n + 8)) (.ofFuel (m + 1)) s := ⟨⟨m + 1, by omega, rfl⟩, room, given, recursion⟩
  have small : (n : Int) < Word.shortEnd := by omega
  obtain ⟨results, t, computes, quiet, rfl⟩ := compute_yields ready small affords
  have there := ready.later quiet
  obtain ⟨u, checks, quiet'⟩ := checkAll_passes there.fresh there.unmarked natural small
    ((affords.later quiet).less (by omega)) (computed_factorials n) (computed_fibonacci n)
  have after := (there.later quiet').printed (printed settings.trace)
  have stack : u.stack = s.stack := quiet'.stack.trans quiet.stack
  have stack' : (u.printed (Demo.printed settings.trace)).stack = s.stack := stack
  have blows : Yields (call (.ofFuel (m + 1)) .blownStack [.int frames]) (u.printed (Demo.printed settings.trace)) _ :=
    blownStack_yields after.fresh (by rw [stack', given]) (by omega) (by rw [stack']; omega) (by omega)
      (by rw [stack']; omega)
  obtain ⟨report, w, blown, quiet'', rfl⟩ := blows
  refine ⟨w, ?_, ?_, after.later quiet''⟩
  · have result : expected s.stack room settings = computed n ++ [("no base case",
        .str (exhaustionText (derivationsWithin (levelsUnder room (s.stack.depth + 1) frames))))] := by
      rw [expected, natural, headroom, Int.toNat_natCast, Int.toNat_natCast]
    unfold run
    rw [natural, bind_of_ok computes]
    rw [bind_of_ok checks, headroom, bind_of_ok blown, result, stack']
    rfl
  · have tidy := ((Tidy.of_quiet (quiet.trans quiet')).trans (Tidy.printed u (Demo.printed settings.trace))).trans
      (Tidy.of_quiet quiet'')
    simpa using tidy

/-! One demonstration after another. -/

theorem chosen_none (cache : Settings.Cache) :
    (chosen cache none).1 = cache.get.1.map Settings.Loaded.settings := rfl

/-- What is kept for one run is kept for the next one. -/
theorem chosen_again {cache : Settings.Cache} {kept : Settings} (loads : (chosen cache none).1 = .ok kept)
    (given : Option Settings) : (chosen (chosen cache given).2 none).1 = .ok kept := by
  cases given with
  | some settings => exact loads
  | none =>
      rw [chosen_none] at loads ⊢
      change (cache.get.2.get.1).map _ = _
      cases got : cache.get.1 with
      | error complaints =>
          rw [got] at loads
          cases loads
      | ok loaded =>
          rw [Settings.Cache.get_of_kept (Settings.Cache.kept_get_of_ok got), ← loads, got]

/-- Demonstrations in any order, with settings of their own or with those that are kept: each one gives the
results of its settings, and prints its summary if it is to; the stack, with the limit of its depth, and
whatever is bound is as it was, so that the next one can follow. -/
theorem demonstrations_agree {fuel room : Nat} {s : Store} {cache : Settings.Cache} {kept : Settings}
    (requests : List (Option Settings)) (hosts : Hosts fuel room s)
    (loads : none ∈ requests → (chosen cache none).1 = .ok kept)
    (fits : ∀ given ∈ requests, Fits s.stack room (given.getD kept)) :
    ∃ t, runs (.ofFuel fuel) cache requests s =
        .ok (.ok (requests.map fun given => expected s.stack room (given.getD kept))) t ∧
      t.out = s.out ++ String.join (requests.map fun given => printed (given.getD kept).trace) ∧
      t.stack = s.stack ∧ (∀ id < s.frames.size, t.frame id = s.frame id) ∧ t.given = s.given ∧
      Hosts fuel room t := by
  induction requests generalizing s cache with
  | nil => exact ⟨s, rfl, by simp [String.join], rfl, fun _ _ => rfl, rfl, hosts⟩
  | cons given rest ih =>
      have first : (chosen cache given).1 = .ok (given.getD kept) := by
        cases given with
        | some settings => rfl
        | none => exact loads (by simp)
      obtain ⟨t, once, tidy, ready⟩ := run_ends hosts (fits given (by simp))
      have hosts' : Hosts fuel room t :=
        { hosts with
          ready
          given := by rw [tidy.stack, hosts.given] }
      have fits' : ∀ given ∈ rest, Fits t.stack room (given.getD kept) := by
        intro given member
        rw [tidy.stack]
        exact fits given (by simp [member])
      have loads' (member : none ∈ rest) : (chosen (chosen cache given).2 none).1 = .ok kept :=
        chosen_again (loads (by simp [member])) given
      obtain ⟨u, others, out, stack, frames, attributes, hosts''⟩ := ih hosts' loads' fits'
      refine ⟨u, ?_, ?_, stack.trans tidy.stack, ?_, attributes.trans tidy.quiet.given, hosts''⟩
      · have chose : chosen cache given = (.ok (given.getD kept), (chosen cache given).2) :=
          Prod.ext first rfl
        rw [runs, chose]
        dsimp only
        rw [bind_of_ok once, bind_of_ok others, tidy.stack]
        rfl
      · rw [out, tidy.out, List.map_cons, String.join_cons, String.append_assoc]
      · intro id known
        exact (frames id (known.trans_le tidy.quiet.size)).trans (tidy.quiet.frames id known)

/-! The session as it starts. -/

theorem start_hosts : Hosts Session.fuel Session.room Session.start where
  ready :=
    { fresh := ⟨by decide, by decide, fun _ _ => rfl, fun _ _ => rfl, fun _ _ => rfl, fun _ _ => rfl, fun _ _ _ => rfl⟩
      original := ⟨rfl, rfl, by decide, rfl, rfl⟩
      unmarked := rfl }
  given := rfl
  enough := by decide
  short := by decide

/-- A traced demonstration of another number. -/
def tracedSettings : Settings := ⟨1000, 50, true, 0⟩

theorem demonstrations_agree_started :
    Hosts Session.fuel Session.room Session.start ∧ (chosen {} none).1 = .ok ⟨2000, 200, false, 6⟩ ∧
    (∀ given ∈ [none, some tracedSettings, none],
      Fits Session.start.stack Session.room (given.getD ⟨2000, 200, false, 6⟩)) ∧
    ∃ t, runs (.ofFuel Session.fuel) {} [none, some tracedSettings, none] Session.start =
        .ok (.ok ([⟨2000, 200, false, 6⟩, tracedSettings, ⟨2000, 200, false, 6⟩].map
          (expected Session.start.stack Session.room))) t ∧
      t.out = printed true ∧ t.stack = Session.start.stack := by
  have loads : (chosen {} none).1 = .ok ⟨2000, 200, false, 6⟩ := rfl
  have fits : ∀ given ∈ [none, some tracedSettings, none],
      Fits Session.start.stack Session.room (given.getD ⟨2000, 200, false, 6⟩) := by
    intro given member
    simp only [List.mem_cons, List.not_mem_nil, or_false] at member
    rcases member with rfl | rfl | rfl <;> exact ⟨⟨by decide, by decide, by decide⟩, by decide, by decide⟩
  refine ⟨start_hosts, loads, fits, ?_⟩
  obtain ⟨t, ends, out, stack, -⟩ := demonstrations_agree _ start_hosts (fun _ => loads) fits
  exact ⟨t, ends, out, stack⟩

end Demo

end Knot
