import Knot.Proofs.FixedPoints.Conduct

/-!
Generators that count. A generator wrapped for tallies, one inside the other, hands the generator on what it is given,
and a thunk that reaches the generator answers through as many wrappers; whenever either has got through, all tallies
have counted alike. The generator stands behind a gate that its thunks go through, sealed or as they are.
-/

namespace Knot

open Run Renaming Machine FixedPoint

/-! What is written of functions. -/

theorem shownPlain_of_showWith {f : Value} {text : String} (view : ∀ s : Store, s.view f = f)
    (plain : ∀ frames, f.showPlain frames = f.showWith frames)
    (shows : ∀ frames, f.showWith frames = .ok text) : Run.shownPlain f = pure text := by
  funext s
  rw [Run.shownPlain, view, plain, shows]
  rfl

theorem shownPlain_closure (mark : Nat) (header : Header) (body : Term) (scope : Scope) :
    Run.shownPlain (.closure mark header body scope) = pure (functionText header.path) := by
  refine shownPlain_of_showWith (fun s => ?_) (fun frames => ?_) fun frames => ?_
  · rw [Store.view, Value.withContents.eq_def]
  · rw [Value.showPlain.eq_def]
  · rw [Value.showWith.eq_def]

theorem shownPlain_builtin (b : Builtin) : Run.shownPlain (.builtin b) = pure b.text := by
  refine shownPlain_of_showWith (fun s => ?_) (fun frames => ?_) fun frames => ?_
  · rw [Store.view, Value.withContents.eq_def]
  · rw [Value.showPlain.eq_def]
  · rw [Value.showWith.eq_def]

theorem shownPlain_counted (mark : Nat) (name : String) (generator tally : Value) :
    Run.shownPlain (.counted mark name generator tally) = pure (functionText "counting.<locals>.counted") := by
  refine shownPlain_of_showWith (fun s => ?_) (fun frames => ?_) fun frames => ?_
  · rw [Store.view, Value.withContents.eq_def]
  · rw [Value.showPlain.eq_def]
  · rw [Value.showWith.eq_def]

theorem shownPlain_countedThunk (mark : Nat) (inner tally : Value) :
    Run.shownPlain (.countedThunk mark inner tally) = pure (functionText "counting.<locals>.thunk") := by
  refine shownPlain_of_showWith (fun s => ?_) (fun frames => ?_) fun frames => ?_
  · rw [Store.view, Value.withContents.eq_def]
  · rw [Value.showPlain.eq_def]
  · rw [Value.showWith.eq_def]

/-- What is the same as a function that uses its first argument for calls only can be written. -/
theorem Value.OnlyCalls.shownPlain {form : CallForm} {f g : Value} (only : g.OnlyCalls form) (same : g.same f) :
    ∃ text, Run.shownPlain f = pure text := by
  cases only with
  | closure =>
      cases f <;> simp only [Value.same, Bool.false_eq_true] at same
      exact ⟨_, shownPlain_closure ..⟩
  | builtin =>
      cases f <;> simp only [Value.same, Bool.false_eq_true] at same
      exact ⟨_, shownPlain_builtin _⟩
  | counted =>
      cases f <;> simp only [Value.same, Bool.false_eq_true] at same
      exact ⟨_, shownPlain_counted ..⟩

/-! What a generator is handed, counted or not. -/

/-- Whether a value is a thunk, or one that counts. -/
def Value.isThunk : Value → Bool
  | .thunk .. | .countedThunk .. => true
  | _ => false

/-- The text of a function; the run does not end where it cannot be written. -/
def Run.written (f : Value) : Run String := recover (shownPlain f) fun _ => outOfFuel

/-- The gate of a generator: any call of a thunk goes through. The run does not end where the generator neither gives a
function nor can be written, as it is where it breaks its contract. -/
def thunkGate (g : Value) : Gate where
  code := g
  isDelay := Value.isThunk
  admits _ _ := true
  before := pure ()
  after f v := if v.isCallable then return v else do
    let _ ← written f
    return v

/-- In a run, a generator uses thunks for calls only: the run comes to the same where it is handed sealed ones. -/
def CallsThunks (g : Value) (run : Machine → Run Value) (s : Store) : Prop :=
  SameRun s.nextMark (fun n => run (levels (gating (thunkGate g) true) n) s) (fun n => run (.ofFuel n) s)

theorem Twins.written_parallel {T : Twins} {way : Way} {w : Stage} {f f' v v' : Value}
    (writes : T.Parallel way w (Via fun _ => id) (shownPlain f) (shownPlain f')) (peer : Peer w v v') :
    T.Parallel way w Peer ((thunkGate f).after f v) ((thunkGate f').after f' v') := by
  refine .ite (by rw [peer.eq, Value.isCallable_rename]) (.pure peer) ?_
  exact (writes.recover fun _ _ _ _ _ => .outOfFuel).bind fun _ _ _ leads _ => .pure (peer.later leads)

theorem thunkGate_alike (g : Value) : (thunkGate g).Alike where
  delays _ v := by cases v <;> rfl
  counted _ _ _ _ _ _ := rfl
  admits _ _ := rfl
  before := .pure trivial
  after fs peer := Twins.written_parallel (.one (fun _ => shownPlain_equi) fs) peer
  after_counted _ _ _ _ _ _ _ _ peer := by
    refine Twins.written_parallel ?_ peer
    rw [shownPlain_countedThunk, shownPlain_countedThunk]
    exact .pure (.plain _ _)

section

variable {g f p v : Value} {seals : Bool} {k : Machine} {args : List Value} {named : Named} {s t : Store}

/-- What is not the generator goes by the rule of the language. -/
theorem gating_of_apart (plain : f.sealed? = none) {m : Nat} (own : f.ownMarks = [m]) (apart : m ∉ g.ownMarks) :
    gating (thunkGate g) seals k f args named = callValue k f args named :=
  gating_eq plain (Gate.nothing_handed_of_ne (Value.same_eq_false_of_apart own apart))

/-- A generator that uses its thunk for calls only goes by it too, where it is not handed sealed thunks. -/
theorem gating_of_onlyCalls {form : CallForm} (only : g.OnlyCalls form) :
    gating (thunkGate g) false = callValue := by
  funext k f args named
  unfold gating
  cases handed : (thunkGate g).handed? f args named with
  | none => rfl
  | some p =>
      obtain ⟨rfl, rfl, same, -⟩ := Gate.of_handed handed
      obtain ⟨text, shows⟩ := only.shownPlain same
      have after (v : Value) : (thunkGate g).after f v = pure v := by
        have writes : written f = pure text := by
          rw [written, shows]
          rfl
        simp only [thunkGate, writes]
        split <;> rfl
      exact (bind_congr after).trans (bind_pure _)

theorem shownPlain_of_written {text : String} (writes : written f s = .ok text t) :
    ∃ text, shownPlain f t = .ok text t := by
  have shows : shownPlain f s = ofExcept ((s.view f).showPlain s.frame) s := rfl
  generalize (s.view f).showPlain s.frame = shown at shows
  cases shown with
  | error fault =>
      rw [written, recover_of_fault (h := fun _ => outOfFuel) shows] at writes
      cases writes
  | ok text =>
      rw [written, recover_of_ok (h := fun _ => outOfFuel) shows] at writes
      cases writes
      exact ⟨text, shows⟩

/-- What a generator gives is a function, or the generator can be written then. -/
theorem written_of_given (room : s.stack.room = none) (same : g.same g) (delay : p.isThunk) (other : g.same p = false)
    {n : Nat} (run : (levels (gating (thunkGate g) seals) n).call g [p] [] s = .ok v t) :
    v.isCallable ∨ ∃ text, shownPlain g t = .ok text t := by
  cases n with
  | zero => cases run
  | succ n =>
      rw [levels_call room, gating_of_handed (Gate.handed_of_delay (G := thunkGate g) same delay other)] at run
      obtain ⟨_, _, -, run⟩ := ok_of_bind run
      obtain ⟨_, _, -, run⟩ := ok_of_bind run
      obtain ⟨result, u, -, run⟩ := ok_of_bind run
      cases callable : result.isCallable with
      | true =>
          simp only [thunkGate, callable, if_true] at run
          cases run
          exact .inl callable
      | false =>
          simp only [thunkGate, callable, Bool.false_eq_true, if_false] at run
          obtain ⟨text, u', writes, run⟩ := ok_of_bind run
          cases run
          exact .inr (shownPlain_of_written writes)

end

/-! Wrappers. -/

/-- A value is a tally with a mark. -/
def Value.IsTally (mark : Nat) (v : Value) : Prop := ∃ derivations thunkCalls, v = .tally mark derivations thunkCalls

/-- The generator counted by tallies, one inside the other, the first one outermost. -/
def FixedPoint.countAll (generator : Value) (tallies : List Value) : Run Value :=
  tallies.foldrM (fun tally counted => counting counted tally) generator

/-- A generator wrapped for counting, with the marks of the tallies, the outermost one first. No wrapper is the
generator itself. -/
inductive Counts (generator : Value) : List Nat → Value → Prop
  | bare : Counts generator [] generator
  | wrapped {nest : List Nat} {counted : Value} (mark : Nat) (name : String) (tally : Nat)
      (derivations thunkCalls : Value) : mark ∉ generator.ownMarks → Counts generator nest counted →
        Counts generator (tally :: nest)
          (.counted mark name counted (.tally tally derivations thunkCalls))

/-- A thunk wrapped for counting, with the marks of the tallies, the outermost one first. No wrapper is the
generator. -/
inductive PassesOn (generator thunk : Value) : List Nat → Value → Prop
  | bare : PassesOn generator thunk [] thunk
  | wrapped {nest : List Nat} {inner : Value} (mark tally : Nat) (derivations thunkCalls : Value) :
      mark ∉ generator.ownMarks → PassesOn generator thunk nest inner →
        PassesOn generator thunk (tally :: nest) (.countedThunk mark inner (.tally tally derivations thunkCalls))

/-- A tally shows integers. -/
def Store.Reads (s : Store) (mark : Nat) (counts : Int × Int) : Prop :=
  s.tallies.lookup mark = some (.int counts.1, .int counts.2)

namespace FixedPoint

/-- What a tally shows after it has counted on. -/
def Counter.on (counter : Counter) (times : Nat) (counts : Int × Int) : Int × Int :=
  match counter with
  | derivations => (counts.1 + times, counts.2)
  | thunkCalls => (counts.1, counts.2 + times)

theorem increment_int (s : Store) (n : Int) :
    increment (.int n) s = .ok (.int (n + 1)) (s.skip 1) := rfl

section

variable {s : Store} {mark : Nat} {counts : Int × Int} (reads : s.Reads mark counts) (d c : Value)
include reads

theorem counts_of_reads : s.counts mark (d, c) = (.int counts.1, .int counts.2) := by
  rw [Store.counts, reads]
  rfl

theorem getAttribute_derivations :
    getAttribute (.tally mark d c) "derivations" s = .ok (.int counts.1) s := by
  have known : s.attribute? (.tally mark d c) "derivations" = some (s.counts mark (d, c)).1 := rfl
  rw [getAttribute, get_bind, known, counts_of_reads reads]
  rfl

theorem getAttribute_thunkCalls :
    getAttribute (.tally mark d c) "thunk_calls" s = .ok (.int counts.2) s := by
  have known : s.attribute? (.tally mark d c) "thunk_calls" = some (s.counts mark (d, c)).2 := rfl
  rw [getAttribute, get_bind, known, counts_of_reads reads]
  rfl

omit reads in
theorem setAttribute_tally (name : String) (v : Value) :
    setAttribute (.tally mark d c) name v s =
      .ok () { s with
        tallies := s.tallies.assign mark
          (if name = "derivations" then (v, (s.counts mark (d, c)).2)
            else ((s.counts mark (d, c)).1, v)) } := rfl

/-- The store with a tally counted on. -/
def counted (s : Store) (mark : Nat) (counts : Int × Int) : Store :=
  { s.skip 1 with tallies := s.tallies.assign mark (.int counts.1, .int counts.2) }

/-- A tally that shows integers counts on. -/
theorem bump_run (counter : Counter) :
    bump (.tally mark d c) counter s = .ok () (counted s mark (counter.on 1 counts)) := by
  have shows : (s.skip 1).counts mark (d, c) = (.int counts.1, .int counts.2) :=
    counts_of_reads (s := s.skip 1) reads d c
  cases counter with
  | derivations =>
      refine (bind_of_ok (getAttribute_derivations reads d c)).trans
        ((bind_of_ok (increment_int ..)).trans ?_)
      rw [setAttribute_tally, shows]
      rfl
  | thunkCalls =>
      refine (bind_of_ok (getAttribute_thunkCalls reads d c)).trans
        ((bind_of_ok (increment_int ..)).trans ?_)
      rw [setAttribute_tally, shows]
      rfl

end

end FixedPoint

/-- Tallies that show integers have counted on, each as often as it is listed. -/
def Advanced (counter : Counter) (nest : List Nat) (s t : Store) : Prop :=
  ∀ m counts, s.Reads m counts → t.Reads m (counter.on (nest.count m) counts)

namespace Advanced

variable {counter : Counter} {nest nest' : List Nat} {s t u : Store}

theorem refl (counter : Counter) (s : Store) : Advanced counter [] s s := by
  intro m counts reads
  cases counter <;> simpa [Counter.on] using reads

theorem trans (first : Advanced counter nest s t) (second : Advanced counter nest' t u) :
    Advanced counter (nest ++ nest') s u := by
  intro m counts reads
  have last := second m _ (first m counts reads)
  cases counter <;> simpa [Counter.on, List.count_append, Int.add_assoc] using last

theorem reverse (advanced : Advanced counter nest s t) : Advanced counter nest.reverse s t := by
  intro m counts reads
  rw [List.count_reverse]
  exact advanced m counts reads

theorem counted {mark : Nat} {counts : Int × Int} (reads : s.Reads mark counts) :
    Advanced counter [mark] s (FixedPoint.counted s mark (counter.on 1 counts)) := by
  intro m shown reads'
  by_cases same : mark = m
  · subst same
    have both := reads.symm.trans reads'
    simp only [Option.some.injEq, Prod.mk.injEq, Value.int.injEq] at both
    obtain rfl : counts = shown := Prod.ext both.1 both.2
    rw [List.count_singleton_self]
    exact Bindings.lookup_assign_self ..
  · rw [List.count_eq_zero_of_not_mem (by simpa using Ne.symm same)]
    refine (Bindings.lookup_assign_of_ne _ _ (Ne.symm same)).trans ?_
    exact refl counter s m shown reads'

theorem reads (advanced : Advanced counter nest s t) {marks : List Nat}
    (reads : ∀ m ∈ marks, ∃ counts, s.Reads m counts) : ∀ m ∈ marks, ∃ counts, t.Reads m counts :=
  fun m member => (reads m member).elim fun counts read => ⟨_, advanced m counts read⟩

end Advanced

theorem FixedPoint.adds_counted {own : List Nat} (s : Store) {mark : Nat} (owned : mark ∈ own)
    (counts : Int × Int) : Adds own s (counted s mark counts) :=
  (Adds.counts s owned _).trans (.skip own { s with tallies := _ } 1)

theorem PassesOn.inside {generator thunk v : Value} {nest : List Nat} {mark tally : Nat} {d c : Value}
    (apart : mark ∉ generator.ownMarks)
    (passes : PassesOn generator (.countedThunk mark thunk (.tally tally d c)) nest v) :
    PassesOn generator thunk (nest ++ [tally]) v := by
  induction passes with
  | bare => exact .wrapped mark tally d c apart .bare
  | wrapped mark tally d c other _ ih => exact .wrapped mark tally d c other ih

/-! How wrappers hand on. -/

section

variable {g : Value} (seals : Bool) {own nest : List Nat} {s : Store} (room : s.stack.room = none)
  (owned : ∀ m ∈ nest, m ∈ own) (reads : ∀ m ∈ nest, ∃ counts, s.Reads m counts)
include room owned reads

/-- A call of a wrapped thunk gets through to it, when all tallies have counted the call. -/
theorem PassesOn.call {thunk v : Value} (passes : PassesOn g thunk nest v) (args : List Value)
    (named : Named) : ∃ t, Adds own s t ∧ Advanced .thunkCalls nest s t ∧
      (∀ n, (levels (gating (thunkGate g) seals) (n + nest.length)).call v args named s =
        (levels (gating (thunkGate g) seals) n).call thunk args named t) ∧
      ∀ n < nest.length, ∃ u, (levels (gating (thunkGate g) seals) n).call v args named s = .error .outOfFuel u := by
  induction passes generalizing s with
  | bare => exact ⟨s, .refl .., .refl _ _, fun _ => rfl, fun n few => absurd few (Nat.not_lt_zero n)⟩
  | @wrapped nest inner mark tally d c apart _ ih =>
      obtain ⟨counts, read⟩ := reads tally (.head _)
      have first : Advanced .thunkCalls [tally] s _ := Advanced.counted read
      have through (n : Nat) : (levels (gating (thunkGate g) seals) (n + 1)).call
          (.countedThunk mark inner (.tally tally d c)) args named s =
            (levels (gating (thunkGate g) seals) n).call inner args named
              ((counted s tally (Counter.thunkCalls.on 1 counts)).did
                (.passed (.tally tally d c) inner (args.isEmpty && named.isEmpty))) := by
        rw [levels_call room, gating_of_apart rfl rfl apart]
        exact (bind_of_ok (bump_run read d c .thunkCalls)).trans rfl
      obtain ⟨t, adds, advanced, run, short⟩ := ih (s := (counted s tally _).did _) room
        (fun m member => owned m (.tail _ member))
        (first.reads fun m member => reads m (.tail _ member))
      refine ⟨t, ((adds_counted s (owned tally (.head _)) _).trans (.did ..)).trans adds,
        first.trans advanced, fun n => (through (n + nest.length)).trans (run n), fun n few => ?_⟩
      cases n with
      | zero => exact ⟨s, rfl⟩
      | succ n =>
          obtain ⟨u, stopped⟩ := short n (Nat.lt_of_succ_lt_succ few)
          exact ⟨u, (through n).trans stopped⟩

/-- A wrapped generator hands a thunk to the generator, wrapped as often, when all tallies have counted
the derivation. -/
theorem Counts.call {counted : Value} (counts : Counts g nest counted) (known : ∀ m ∈ g.ownMarks, m < s.nextMark)
    (thunk : Value) : ∃ v t, PassesOn g thunk nest.reverse v ∧ Adds own s t ∧
      Advanced .derivations nest s t ∧
      (∀ n, (levels (gating (thunkGate g) seals) (n + nest.length)).call counted [thunk] [] s =
        (levels (gating (thunkGate g) seals) n).call g [v] [] t) ∧
      ∀ n < nest.length, ∃ u, (levels (gating (thunkGate g) seals) n).call counted [thunk] [] s =
        .error .outOfFuel u := by
  induction counts generalizing s thunk with
  | bare =>
      exact ⟨thunk, s, .bare, .refl .., .refl _ _, fun _ => rfl,
        fun n few => absurd few (Nat.not_lt_zero n)⟩
  | @wrapped nest inner mark name tally d c apart _ ih =>
      obtain ⟨shown, read⟩ := reads tally (.head _)
      have first : Advanced .derivations [tally] s _ := Advanced.counted read
      let told := (FixedPoint.counted s tally (Counter.derivations.on 1 shown)).did
        (.derived (.tally tally d c))
      let handed : Value := .countedThunk told.nextMark thunk (.tally tally d c)
      have later (m : Nat) (own : m ∈ g.ownMarks) : m < told.nextMark := Nat.lt_succ_of_lt (known m own)
      have through (n : Nat) : (levels (gating (thunkGate g) seals) (n + 1)).call
          (.counted mark name inner (.tally tally d c)) [thunk] [] s =
            (levels (gating (thunkGate g) seals) n).call inner [handed] [] (told.skip 1) := by
        rw [levels_call room, gating_of_apart rfl rfl apart]
        exact (bind_of_ok (bump_run read d c .derivations)).trans rfl
      obtain ⟨v, t, passes, adds, advanced, run, short⟩ := ih (s := told.skip 1) room
        (fun m member => owned m (.tail _ member))
        (first.reads fun m member => reads m (.tail _ member)) (fun m own => Nat.lt_succ_of_lt (later m own)) handed
      have new : told.nextMark ∉ g.ownMarks := fun own => Nat.lt_irrefl _ (later _ own)
      refine ⟨v, t, List.reverse_cons ▸ passes.inside new,
        (((adds_counted s (owned tally (.head _)) _).trans (.did ..)).trans (.skip ..)).trans adds,
        first.trans advanced, fun n => (through (n + nest.length)).trans (run n), fun n few => ?_⟩
      cases n with
      | zero => exact ⟨s, rfl⟩
      | succ n =>
          obtain ⟨u, stopped⟩ := short n (Nat.lt_of_succ_lt_succ few)
          exact ⟨u, (through n).trans stopped⟩

end

/-- Counting a generator makes a wrapper for each tally. -/
theorem countAll_run {g : Value} {nest : List Nat} {tallies : List Value}
    (are : List.Forall₂ Value.IsTally nest tallies) {s : Store} (known : ∀ m ∈ g.ownMarks, m < s.nextMark)
    (settled : Settled s g) (held : ∀ tally ∈ tallies, Settled s tally) :
    ∃ counted, countAll g tallies s = .ok counted (s.skip tallies.length) ∧ Counts g nest counted ∧
      Settled (s.skip tallies.length) counted := by
  induction are with
  | nil => exact ⟨g, rfl, .bare, settled⟩
  | @cons mark tally nest tallies is _ ih =>
      obtain ⟨d, c, rfl⟩ := is
      obtain ⟨counted, run, counts, wrapped⟩ := ih fun tally member => held tally (.tail _ member)
      have new : s.nextMark + tallies.length ∉ g.ownMarks := fun own => by
        have := known _ own
        omega
      obtain ⟨name, wraps⟩ : ∃ name, FixedPoint.counting counted (.tally mark d c) (s.skip tallies.length) =
          .ok (.counted (s.nextMark + tallies.length) name counted (.tally mark d c)) (s.skip (tallies.length + 1)) :=
        ⟨_, rfl⟩
      refine ⟨_, ?_, .wrapped _ name mark d c new counts, fun r fixes => ?_⟩
      · rw [countAll, List.foldrM_cons]
        exact (bind_of_ok run).trans wraps
      · have inner : Settled (s.skip (tallies.length + 1)) counted :=
          wrapped.later (Nat.le_succ (s.nextMark + tallies.length)) (Nat.le_refl _)
        have tally : Settled (s.skip (tallies.length + 1)) (.tally mark d c) :=
          (held _ (.head _)).later (Nat.le_add_right _ _) (Nat.le_refl _)
        have below : s.nextMark + tallies.length < s.nextMark + (tallies.length + 1) := Nat.lt_succ_self _
        rw [Value.rename, fixes.marks _ below, inner r fixes, tally r fixes]

end Knot
