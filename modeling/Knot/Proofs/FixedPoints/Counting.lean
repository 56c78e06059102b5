import Knot.Proofs.FixedPoints.Wrappers
import Knot.Proofs.Parallel.Apart
import Mathlib.Algebra.Ring.Int.Defs
import Mathlib.Tactic.Choose

/-!
Counting is transparent. A generator that is counted, by however many tallies, has the fixed point that it has
uncounted: the wrappers change tallies that nothing leads to, and hand on what the generator is given. Where the
generator can see the tally, counting shows.
-/

namespace Knot

open Run Renaming Machine FixedPoint

/-! A generator beside one that is counted. -/

/-- How much fuel the two runs have where a generator is handed a thunk, through as many wrappers in the
second run as there are tallies. -/
def Way.Spares (way : Way) (wrappers n m : Nat) : Prop :=
  match way with
  | .forth => (2 * wrappers + 1) * n + wrappers ≤ m
  | .back => m ≤ n + wrappers

namespace Way.Spares

variable {way : Way} {wrappers n m : Nat}

theorem of_paced (paced : way.Paced (2 * wrappers) (n + 1) (m + 1 + wrappers)) :
    way.Spares wrappers n m := by
  cases way <;> simp only [Paced, Spares, Nat.mul_succ] at paced ⊢ <;> omega

theorem paced (spares : way.Spares wrappers n (m + wrappers)) : way.Paced (2 * wrappers) n m := by
  cases way <;> simp only [Paced, Spares] at spares ⊢ <;> omega

theorem back_of_lt (spares : way.Spares wrappers n m) (few : m < wrappers) : way = .back := by
  cases way with
  | forth =>
      simp only [Spares] at spares
      omega
  | back => rfl

end Way.Spares

namespace Twins

/-- The thunks of a generator beside those of the counted one, as it gets them, and the tallies beside themselves. -/
def counting (g : Value) (nest : List Nat) (starts : Nat → Int × Int) (first : Nat) : Twins where
  Twin w u v := (∃ counted mark mark', u = .thunk mark g ∧ (first ≤ mark ∧ mark < w.left.nextMark) ∧
    (first ≤ mark' ∧ mark' < w.right.nextMark) ∧ PassesOn g (.thunk mark' counted) nest.reverse v ∧
      Counts g nest counted ∧ Peer w g g) ∨ u.isTallyOf nest ∧ v = u ∧ Settled w.left u
  form := anyhow
  loose := True
  known := (List.range first).filter (!nest.contains ·)
  own := nest
  Holds s := ∃ derived passed : Nat, ∀ m ∈ nest, s.Reads m
    ((starts m).1 + derived * nest.count m, (starts m).2 + passed * nest.count m)
  settled := by
    rintro w u v (⟨counted, mark, mark', rfl, ⟨-, below⟩, -, -, -, generators⟩ | ⟨-, -, settled⟩)
    · intro r fixes
      rw [Value.rename, fixes.marks mark below, generators.fixed r fixes]
    · exact settled
  later := by
    rintro w w' u v leads (⟨counted, mark, mark', rfl, ⟨above, below⟩, ⟨above', below'⟩, passes, counts, generators⟩ |
      ⟨tally, same, settled⟩)
    · exact .inl ⟨counted, mark, mark', rfl, ⟨above, below.trans_le leads.marks⟩,
        ⟨above', below'.trans_le leads.given⟩, passes, counts, Peer.later generators leads⟩
    · exact .inr ⟨tally, same, settled.later leads.marks leads.frames⟩
  holds_same := by
    rintro s s' same ⟨derived, passed, reads⟩
    exact ⟨derived, passed, fun m member => (same m member).trans (reads m member)⟩

variable {g : Value} {nest : List Nat} {starts : Nat → Int × Int} {first : Nat} {way : Way} {w : Stage}

theorem counting_reads {s : Store} (holds : (counting g nest starts first).Holds s) :
    ∀ m ∈ nest, ∃ counts, s.Reads m counts :=
  fun m member => holds.elim fun _ passed => passed.elim fun _ reads => ⟨_, reads m member⟩

/-- All tallies have counted once more. -/
theorem counting_holds {counter : Counter} {s t : Store} (advanced : Advanced counter nest s t)
    (holds : (counting g nest starts first).Holds s) : (counting g nest starts first).Holds t := by
  obtain ⟨derived, passed, reads⟩ := holds
  cases counter with
  | derivations =>
      refine ⟨derived + 1, passed, fun m member => ?_⟩
      have next := advanced m _ (reads m member)
      simpa only [Counter.on, Nat.cast_succ, Int.add_mul, Int.one_mul, Int.add_assoc] using next
  | thunkCalls =>
      refine ⟨derived, passed + 1, fun m member => ?_⟩
      have next := advanced m _ (reads m member)
      simpa only [Counter.on, Nat.cast_succ, Int.add_mul, Int.one_mul, Int.add_assoc] using next

section

variable {seals : Bool} (routine : g.isRoutine) (marks : ∀ m ∈ g.ownMarks, m < first ∧ m ∉ nest)
include marks

/-- A mark given out later than the generator is not its own. -/
theorem new_mark {mark : Nat} (above : first ≤ mark) : mark ∉ g.ownMarks :=
  fun own => Nat.not_lt.mpr above (marks mark own).1

theorem passes_apart {mark : Nat} {counted v : Value} {nest' : List Nat} (above : first ≤ mark)
    (passes : PassesOn g (.thunk mark counted) nest' v) : v.isThunk ∧ g.same v = false := by
  cases passes with
  | bare => exact ⟨rfl, Value.same_eq_false_of_apart rfl (new_mark marks above)⟩
  | wrapped mark tally d c apart => exact ⟨rfl, Value.same_eq_false_of_apart rfl apart⟩

include routine

theorem counting_hands : (counting g nest starts first).Hands (thunkGate g) where
  alike := thunkGate_alike g
  routine := routine
  known m own := by
    have := marks m own
    simpa [counting] using this
  delays := by
    rintro w u v (⟨counted, mark, mark', rfl, -, above, passes, -⟩ | ⟨-, rfl, -⟩)
    · exact (passes_apart marks above.1 passes).1
    · rfl
  apart := by
    rintro w u v - (⟨counted, mark, mark', rfl, above, above', passes, -⟩ | ⟨tally, -⟩) delay
    · exact ⟨Value.same_eq_false_of_apart rfl (new_mark marks above.1), (passes_apart marks above'.1 passes).2⟩
    · cases u <;> simp [Value.isTallyOf, thunkGate, Value.isThunk] at tally delay
  admits _ := .inl rfl
  sealed _ _ admits := admits

variable (usage : seals = false → g.OnlyCalls anyhow)
include usage

/-- A derivation comes to the same for the generator and for the counted one. -/
theorem counting_derive {n m : Nat} (spares : way.Spares nest.length n m)
    (before : ∀ {n' m'}, n = n' + 1 → m = m' + 1 + nest.length → way.Paced (2 * nest.length) n' m' →
      (counting g nest starts first).Companions way (levels (gating (thunkGate g) seals) n')
        (levels (gating (thunkGate g) seals) m'))
    {counted : Value} (generators : Peer w g g) (counts : Counts g nest counted) (above : first ≤ w.left.nextMark)
    (above' : first ≤ w.right.nextMark) :
    (counting g nest starts first).Parallel way w Peer
      (FixedPoint.derive (levels (gating (thunkGate g) seals) n) g)
      (FixedPoint.derive (levels (gating (thunkGate g) seals) m) counted) := by
  have numbered : (counting g nest starts first).Parallel way w
      (fun w₁ a b => Via Renaming.mark w₁ a b ∧ a = w.left.nextMark) Run.fresh Run.fresh :=
    .giving (P := fun a _ => a = w.left.nextMark) (.none (F := Renaming.mark) fun _ => Equi.fresh) fun run => by
      cases run
      rfl
  refine numbered.bind fun w₁ mark mark' leads₁ ⟨numbers, new⟩ => ?_
  have generators₁ : Peer w₁ g g := generators.later leads₁
  have other : first ≤ mark' := numbers.eq ▸ above'.trans (leads₁.newMarks mark new.ge)
  have same : g.same g := Value.same_of_isRoutine routine
  have apart : g.same (.thunk mark g) = false :=
    Value.same_eq_false_of_apart rfl (new_mark marks (new ▸ above))
  have called : (counting g nest starts first).Parallel way w₁
      (fun w a b => Peer w a b ∧ (a.isCallable ∨ ∃ text, shownPlain g w.left = .ok text w.left))
      ((levels (gating (thunkGate g) seals) n).call g [.thunk mark g] [])
      ((levels (gating (thunkGate g) seals) m).call counted [.thunk mark' counted] []) := by
    refine .given fun sound => ?_
    refine .giving (P := fun a t => a.isCallable ∨ ∃ text, shownPlain g t = .ok text t) ?_
      fun run => written_of_given sound.rooted.room same rfl apart run
    have room : w₁.right.stack.room = none := sound.beside.image.stack ▸ sound.rooted.room
    obtain ⟨v, t, passes, adds, advanced, run, short⟩ := counts.call seals room (fun _ member => member)
      (counting_reads sound.holds) (fun m own => ((marks m own).1.trans_le above').trans_le leads₁.given)
      (.thunk mark' counted)
    by_cases few : m < nest.length
    · exact .short (.inr ⟨spares.back_of_lt few, short m few⟩)
    · obtain ⟨m, rfl⟩ := Nat.exists_eq_add_of_le' (Nat.le_of_not_lt few)
      refine .aside (run m) (fun _ => adds) (counting_holds advanced) fun names leads => ?_
      have below : mark < w₁.left.nextMark := sound.rooted.mark_lt numbers.fixed
      have below' : mark' < t.nextMark := numbers.eq ▸ (sound.below mark below).trans_le adds.marks
      have twin : (counting g nest starts first).Twin ⟨names, w₁.left, t⟩ (.thunk mark g) v :=
        .inl ⟨counted, mark, mark', rfl, ⟨new ▸ above, below⟩, ⟨other, below'⟩, passes, counts,
          Peer.later generators₁ leads⟩
      exact (counting_hands routine marks).level spares.paced
        (fun first second paced => before first (by omega) paced) usage (Peer.later generators₁ leads) twin rfl
  refine called.bind fun w₂ result result' leads₂ ⟨peer, written⟩ => ?_
  have callable : result'.isCallable = result.isCallable := by rw [peer.eq, Value.isCallable_rename]
  have results (w₃ : Stage) (leads₃ : w₂.Leads w₃) (text text' : String) :
      (counting g nest starts first).Parallel way w₃ Peer
        (shown result >>= fun result => fault (.contract (.generatorReturned text result)))
        (shown result' >>= fun result => fault (.contract (.generatorReturned text' result))) :=
    (Parallel.one (F := fun _ => id) (fun _ => shown_equi) (peer.later leads₃)).bind fun _ _ _ _ _ =>
      .stop (.contract trivial rfl rfl)
  rw [callable]
  cases is : result.isCallable with
  | true => exact .pure peer
  | false =>
      cases counts with
      | bare =>
          exact (Parallel.one (F := fun _ => id) (fun _ => shownPlain_equi) (generators₁.later leads₂)).bind
            fun w₃ text text' leads₃ _ => results w₃ leads₃ text text'
      | wrapped mark name tally d c =>
          obtain ⟨text, shows⟩ := written.resolve_left (by rw [is]; exact Bool.false_ne_true)
          rw [shownPlain_counted]
          refine .given fun sound => .onward (bind_of_ok shows) ?_
          exact results w₂ sound.refl text _

/-- A call of the thunk comes to the same for the generator and for the counted one. -/
theorem counting_thunk {n m mark mark' : Nat} (spares : way.Spares nest.length n m)
    (before : ∀ {n' m'}, n = n' + 1 → m = m' + 1 + nest.length → way.Paced (2 * nest.length) n' m' →
      (counting g nest starts first).Companions way (levels (gating (thunkGate g) seals) n')
        (levels (gating (thunkGate g) seals) m'))
    {counted : Value} (generators : Peer w g g) (counts : Counts g nest counted) (above : first ≤ w.left.nextMark)
    (above' : first ≤ w.right.nextMark) {args args' : List Value} {named named' : Named}
    (peers : Peers w args args') (keys : PeersNamed w named named') :
    (counting g nest starts first).Parallel way w Peer
      (callValue (levels (gating (thunkGate g) seals) n) (.thunk mark g) args named)
      (callValue (levels (gating (thunkGate g) seals) m) (.thunk mark' counted) args' named') := by
  have same : named'.any (·.1 == "self") = named.any (·.1 == "self") := by
    rw [keys.eq, Renaming.named, List.any_map]
    rfl
  have refused : (counting g nest starts first).Parallel way w Peer
      (FixedPoint.refuse args named) (FixedPoint.refuse args' named') := Companions.refuse peers keys
  refine .ite (.of_eq (congrArg (· = true) same)) (.fault rfl) ?_
  obtain rfl := peers.eq
  obtain rfl := keys.eq
  cases args with
  | cons arg args => exact refused
  | nil =>
      cases named with
      | cons entry named => exact refused
      | nil =>
          exact .tells _ _ fun w' leads => counting_derive routine marks usage spares before
            (generators.later leads) counts (above.trans leads.marks) (above'.trans leads.given)

omit usage marks in
/-- No tally can be called. -/
theorem counting_tally {n m : Nat} (paced : way.Paced (2 * nest.length) n m) {u : Value} (tally : u.isTallyOf nest)
    (args args' : List Value) (named named' : Named) :
    (counting g nest starts first).Parallel way w Peer ((levels (gating (thunkGate g) seals) n).call u args named)
      ((levels (gating (thunkGate g) seals) m).call u args' named') := by
  have other : g.same u = false := by
    cases u <;> simp only [Value.isTallyOf, Bool.false_eq_true] at tally
    cases g <;> first | rfl | cases routine
  have plain : u.sealed? = none := by
    cases u <;> simp only [Value.isTallyOf, Bool.false_eq_true] at tally
    rfl
  refine .level paced fun _ _ _ => ?_
  rw [gating_eq plain (Gate.nothing_handed_of_ne other), gating_eq plain (Gate.nothing_handed_of_ne other)]
  cases u <;> simp only [Value.isTallyOf, Bool.false_eq_true] at tally
  exact .fault rfl

theorem counting_lawful :
    (counting g nest starts first).Lawful way (gating (thunkGate g) seals) (2 * nest.length) where
  call companions _ _ _ _ _ _ _ fs peers keys := companions.callGating (counting_hands routine marks) fs peers keys
  handed companions _ _ _ _ _ _ _ only fs linked peers :=
    companions.handGating (counting_hands routine marks) only fs linked peers
  counted companions _ _ _ _ _ _ _ _ _ _ _ marked linked tallies peers keys admits :=
    companions.countGating (counting_hands routine marks) marked linked tallies peers keys admits
  twin := by
    rintro n m paced before w u v args args' named named'
      (⟨counted, mark, mark', rfl, above, above', passes, counts, generators⟩ | ⟨tally, rfl, -⟩) peers keys -
    case inr => exact counting_tally routine paced tally args args' named named'
    refine .given fun sound => ?_
    have room : w.right.stack.room = none := sound.beside.image.stack ▸ sound.rooted.room
    obtain ⟨t, adds, advanced, run, short⟩ := passes.call seals room
      (fun _ member => List.mem_reverse.mp member)
      (fun m member => counting_reads sound.holds m (List.mem_reverse.mp member)) args' named'
    rw [List.length_reverse] at run short
    by_cases few : m < nest.length
    · refine .short ?_
      cases way with
      | forth =>
          have none : n = 0 := by
            simp only [Way.Paced] at paced
            by_contra some
            have := Nat.le_mul_of_pos_right (2 * nest.length + 1) (Nat.pos_of_ne_zero some)
            omega
          exact .inl ⟨rfl, none ▸ ⟨w.left, rfl⟩⟩
      | back => exact .inr ⟨rfl, short m few⟩
    · obtain ⟨m, rfl⟩ := Nat.exists_eq_add_of_le' (Nat.le_of_not_lt few)
      refine .aside (run m) (fun _ => adds)
        (counting_holds (List.reverse_reverse nest ▸ advanced.reverse)) fun names leads => ?_
      cases n with
      | zero =>
          cases way with
          | forth => exact .short (.inl ⟨rfl, w.left, rfl⟩)
          | back =>
              obtain rfl : m = 0 := by
                simp only [Way.Paced] at paced
                omega
              exact .short (.inr ⟨rfl, t, rfl⟩)
      | succ n =>
          cases m with
          | zero =>
              cases way with
              | forth =>
                  simp only [Way.Paced, Nat.mul_succ] at paced
                  omega
              | back => exact .short (.inr ⟨rfl, t, rfl⟩)
          | succ m =>
              have spares : way.Spares nest.length n m := .of_paced paced
              refine Parallel.deeper ?_
              rw [gating_of_apart rfl rfl (new_mark marks above.1), gating_of_apart rfl rfl (new_mark marks above'.1)]
              exact counting_thunk routine marks usage spares (fun first second paced => before (by omega) paced)
                (Peer.later generators leads) counts (above.1.trans above.2.le)
                ((above'.1.trans above'.2.le).trans leads.given) (peers.later leads) (keys.later leads)

/-- The fixed points of the generator and of the counted one come to the same for an argument. -/
theorem counting_through {n m : Nat} (paced : way.Paced (2 * nest.length) n m) {counted x x' : Value}
    (generators : Peer w g g) (counts : Counts g nest counted) (above : first ≤ w.left.nextMark)
    (above' : first ≤ w.right.nextMark) (arguments : Peer w x x') :
    (counting g nest starts first).Parallel way w Peer
      (Fixing.native.through (levels (gating (thunkGate g) seals) n) g x)
      (Fixing.native.through (levels (gating (thunkGate g) seals) m) counted x') := by
  have companions {n m : Nat} (paced : way.Paced (2 * nest.length) n m) :
      (counting g nest starts first).Companions way (levels (gating (thunkGate g) seals) n)
        (levels (gating (thunkGate g) seals) m) := (counting_lawful routine marks usage).companions paced
  have same : g.same g := Value.same_of_isRoutine routine
  have bare {f : Value} : (thunkGate g).handed? f [g] [] = none := Gate.nothing_handed_of_code same
  have wrapped {f : Value} : (thunkGate g).handed? f [counted] [] = none := by
    cases counts with
    | bare => exact bare
    | wrapped => exact Gate.nothing_handed_of_not_delay rfl
  have built : (counting g nest starts first).Parallel way w Peer
      ((levels (gating (thunkGate g) seals) n).call (.builtin .fixedPoint) [g] [])
      ((levels (gating (thunkGate g) seals) m).call (.builtin .fixedPoint) [counted] []) := by
    cases n with
    | zero =>
        cases way with
        | forth => exact .short (.inl ⟨rfl, w.left, rfl⟩)
        | back =>
            obtain rfl := Nat.le_zero.mp paced
            exact .short (.inr ⟨rfl, w.right, rfl⟩)
    | succ n =>
        cases m with
        | zero =>
            cases way with
            | forth => simp [Way.Paced, Nat.mul_succ] at paced
            | back => exact .short (.inr ⟨rfl, w.right, rfl⟩)
        | succ m =>
            have spares : way.Spares nest.length n m := by
              cases way <;> simp only [Way.Paced, Way.Spares, Nat.mul_succ] at paced ⊢ <;> omega
            refine Parallel.deeper ?_
            rw [gating_eq rfl bare, gating_eq rfl wrapped]
            have begun : (counting g nest starts first).Parallel way w Peer
                (FixedPoint.build (levels (gating (thunkGate g) seals) n) g)
                (FixedPoint.build (levels (gating (thunkGate g) seals) m) counted) :=
              .tells _ _ fun w' leads => counting_derive routine marks usage spares (fun _ _ paced => companions paced)
                (generators.later leads) counts (above.trans leads.marks) (above'.trans leads.given)
            exact begun
  exact built.bind fun w' f f' leads functions => (companions paced).call functions
    (.cons (Peer.later arguments leads) (.nil _)) (.nil _)

end

/-- What holds of the tallies of the second run holds when it has ended. -/
theorem Sound.holds_after {T : Twins} {w : Stage} (sound : T.Sound w) {x y : Run Value}
    (parallel : T.Parallel .back w Peer x y) (ended : Ended (y w.right)) : T.Holds (remains (y w.right)) := by
  have ends := parallel sound
  generalize x w.left = a at ends
  generalize y w.right = b at ends ended ⊢
  cases ends with
  | ok _ sound' => exact sound'.holds
  | fault _ sound' => exact sound'.holds
  | forth forth => cases forth
  | back => exact absurd rfl (ended _)

end Twins

/-! Counting in a session. -/

theorem Value.eq_int_of_outline {v : Value} {i : Int} (same : v.outline = .int i) : v = .int i := by
  cases v <;> simp_all [outline]

/-- Tallies that show integers show them where they cannot be told apart. -/
theorem Store.Reads.of_counted {s t : Store} {mark : Nat} {counts : Int × Int} (reads : t.Reads mark counts)
    (same : s.counted mark = t.counted mark) : s.Reads mark counts := by
  rw [Store.counted, Store.counted, reads] at same
  obtain ⟨⟨d, c⟩, found, shows⟩ := Option.map_eq_some_iff.mp same
  have derivations : d = .int counts.1 := Value.eq_int_of_outline (congrArg Prod.fst shows)
  have thunkCalls : c = .int counts.2 := Value.eq_int_of_outline (congrArg Prod.snd shows)
  rw [Store.Reads, found, derivations, thunkCalls]

theorem Rooted.tally_lt {s : Store} (rooted : Rooted s) {mark : Nat} {counts : Int × Int}
    (reads : s.Reads mark counts) : mark < s.nextMark := by
  obtain ⟨before, after, listed, -⟩ := List.lookup_eq_some_iff.mp reads
  refine rooted.mark_lt fun r fixes => ?_
  have same : s.tallies.map (Prod.map r.mark r.entry) = s.tallies := by
    simpa [fixes.alone] using (rooted.image r fixes).tallies.symm
  have member : (mark, (Value.int counts.1, Value.int counts.2)) ∈ s.tallies := by
    rw [listed]
    simp
  exact congrArg Prod.fst (map_fixed same _ member)

theorem Value.ownMarks_avoid {own : List Nat} {v : Value} (avoids : v.avoids own) : ∀ m ∈ v.ownMarks, m ∉ own := by
  cases v <;> simp_all [Value.avoids, Value.ownMarks]

/-- A generator is counted by tallies, and its fixed point applied. -/
def FixedPoint.throughCounted (k : Machine) (g : Value) (tallies : List Value) (x : Value) : Run Value := do
  let counted ← countAll g tallies
  Fixing.native.through k counted x

namespace Twins

variable {g f x : Value} {s : Store}

/-- Behind the gate of a generator, a function applied to an argument comes to the same where the store has given out
more marks. -/
theorem through_skip (seals : Bool) (rooted : Rooted s) (routine : g.isRoutine)
    (marks : ∀ m ∈ g.ownMarks, m < s.nextMark) (functions : Settled s f) (arguments : Settled s x) (more : Nat) :
    SameRun s.nextMark (fun n => Fixing.native.through (levels (gating (thunkGate g) seals) n) f x s)
      (fun n => Fixing.native.through (levels (gating (thunkGate g) seals) n) f x (s.skip more)) := by
  have lawful (way : Way) : (nothing s.nextMark).Lawful way (gating (thunkGate g) seals) 0 :=
    nothing_lawful fun companions => companions.callGating (nothing_hands (thunkGate_alike g) routine marks)
  exact sameRun_aside (fun k => Fixing.native.through k f x) rooted (.skip [] s more) rfl lawful
    fun agrees companions => companions.through (functions.peer rooted agrees) (arguments.peer rooted agrees) .native

end Twins

namespace Twins

variable {g x counted : Value} {nest : List Nat} (seals : Bool) {s : Store}

/-- Behind its gate, a generator has the fixed point that it has counted by tallies that nothing leads to. -/
theorem counting_beside (rooted : Rooted s) (avoids : s.Avoids nest) (starts : Nat → Int × Int)
    (reads : ∀ m ∈ nest, s.Reads m (starts m)) (routine : g.isRoutine)
    (usage : seals = false → g.OnlyCalls anyhow) (generator : g.avoids nest) (generators : Settled s g)
    (argument : x.avoids nest) (arguments : Settled s x) (counts : Counts g nest counted) :
    SameRun 0 (fun n => Fixing.native.through (levels (gating (thunkGate g) seals) n) g x (s.skip s.nextMark))
        (fun m => Fixing.native.through (levels (gating (thunkGate g) seals) m) counted x (s.skip s.nextMark)) ∧
      ∀ m, Ended (Fixing.native.through (levels (gating (thunkGate g) seals) m) counted x (s.skip s.nextMark)) →
        (counting g nest starts s.nextMark).Holds
          (remains (Fixing.native.through (levels (gating (thunkGate g) seals) m) counted x (s.skip s.nextMark))) := by
  have marks : ∀ m ∈ g.ownMarks, m < s.nextMark ∧ m ∉ nest := fun m own =>
    ⟨rooted.ownMarks_lt generators m own, Value.ownMarks_avoid generator m own⟩
  have gave : s.Gave (counting g nest starts s.nextMark).own :=
    ⟨avoids.zero, fun m member => rooted.tally_lt (reads m member)⟩
  have unchanged (m : Nat) (member : m ∈ nest) :
      s.Reads m ((starts m).1 + (0 : Nat) * nest.count m, (starts m).2 + (0 : Nat) * nest.count m) := by
    simpa using reads m member
  have sound : (counting g nest starts s.nextMark).Sound (aside rooted gave) := by
    refine Sound.aside_start rooted gave avoids rfl (fun tally settled => .inr ⟨tally, rfl, settled⟩)
      (fun m member => ?_) ⟨0, 0, unchanged⟩
    simpa [counting] using member
  have generators' : Peer (aside rooted gave) g g := aside_peer rooted gave generator generators
  have arguments' : Peer (aside rooted gave) x x := aside_peer rooted gave argument arguments
  have plain {way : Way} {n m : Nat} (paced : way.Paced (2 * nest.length) n m) :
      (counting g nest starts s.nextMark).Parallel way (aside rooted gave) Peer
        (Fixing.native.through (levels (gating (thunkGate g) seals) n) g x)
        (Fixing.native.through (levels (gating (thunkGate g) seals) m) g x) :=
    ((counting_lawful routine marks usage).companions paced).through generators' arguments' .native
  have through {way : Way} {n m : Nat} (paced : way.Paced (2 * nest.length) n m) :
      (counting g nest starts s.nextMark).Parallel way (aside rooted gave) Peer
        (Fixing.native.through (levels (gating (thunkGate g) seals) n) g x)
        (Fixing.native.through (levels (gating (thunkGate g) seals) m) counted x) :=
    counting_through routine marks usage paced generators' counts (Nat.le_refl _) (Nat.le_add_right ..) arguments'
  have forth (n : Nat) : Way.forth.Paced (2 * nest.length) n ((2 * nest.length + 1) * n) := Nat.le_refl _
  have back (m : Nat) : Way.back.Paced (2 * nest.length) m m := Nat.le_refl m
  have none : ∀ m < 0, m ∈ (counting g nest starts s.nextMark).known := fun m below => absurd below (Nat.not_lt_zero m)
  let run (v : Value) (n : Nat) : Run Value := Fixing.native.through (levels (gating (thunkGate g) seals) n) v x
  have first := sound.sameRun (x := run g) (y := run g) none (fun n => ⟨_, plain (forth n)⟩)
    fun m => ⟨_, plain (back m)⟩
  have second := sound.sameRun (x := run g) (y := run counted) none (fun n => ⟨_, through (forth n)⟩)
    fun m => ⟨_, through (back m)⟩
  exact ⟨first.symm.trans second, fun m ended => sound.holds_after (through (back m)) ended⟩

end Twins

namespace Machine

open Twins

/-! Uses for calls only. -/

/-- A generator uses what it is handed for calls only when it goes through the combinator and when it does so counted:
its code does, or it makes no difference to either run that what it is handed is sealed. -/
def UsesForCalls (g : Value) (tallies : List Value) (x : Value) (s : Store) : Prop :=
  g.OnlyCalls anyhow ∨ CallsThunks g (fun k => Fixing.native.through k g x) s ∧
    CallsThunks g (fun k => throughCounted k g tallies x) s

theorem UsesForCalls.gated {g x : Value} {tallies : List Value} {s : Store} (uses : UsesForCalls g tallies x s) :
    ∃ seals, (seals = false → g.OnlyCalls anyhow) ∧
      SameRun s.nextMark (fun n => Fixing.native.through (levels (gating (thunkGate g) seals) n) g x s)
        (fun n => Fixing.native.through (.ofFuel n) g x s) ∧
      SameRun s.nextMark (fun n => throughCounted (levels (gating (thunkGate g) seals) n) g tallies x s)
        (fun n => throughCounted (.ofFuel n) g tallies x s) := by
  rcases uses with only | ⟨plain, counted⟩
  · refine ⟨false, fun _ => only, ?_⟩
    simp only [gating_of_onlyCalls only, levels_callValue]
    exact ⟨.refl .., .refl ..⟩
  · exact ⟨true, fun other => absurd other.symm Bool.false_ne_true, plain, counted⟩

/-- Neither run of a generator, through the combinator as it is or counted, comes to anything else where some names of
the session are gone. -/
structure GoesWithout (names : List String) (g : Value) (tallies : List Value) (x : Value) (s : Store) : Prop where
  plain : SameRun s.nextMark (fun n => Fixing.native.through (.ofFuel n) g x (s.forget names))
    (fun n => Fixing.native.through (.ofFuel n) g x s)
  counted : SameRun s.nextMark (fun n => throughCounted (.ofFuel n) g tallies x (s.forget names))
    (fun n => throughCounted (.ofFuel n) g tallies x s)

/-! Runs that last. -/

section

variable {g f x : Value} {nest : List Nat} {tallies : List Value} {s : Store} {rule : Rule}

/-- What a function comes to through the combinator it comes to with more fuel as well. -/
theorem lasting_through (rooted : Rooted s) (lawful : (nothing s.nextMark).Lawful .back rule 0)
    (functions : Settled s f) (arguments : Settled s x) :
    Lasting s.nextMark fun n => Fixing.native.through (levels rule n) f x s :=
  lasting rooted lawful (fun k => Fixing.native.through k f x) fun agrees companions =>
    companions.through (functions.peer rooted agrees) (arguments.peer rooted agrees) .native

theorem lasting_throughCounted (rooted : Rooted s)
    (lawful : ∀ known, s.nextMark ≤ known → (nothing known).Lawful .back rule 0) (generators : Settled s g)
    (arguments : Settled s x) (are : List.Forall₂ Value.IsTally nest tallies)
    (held : ∀ tally ∈ tallies, Settled s tally) :
    Lasting s.nextMark fun n => throughCounted (levels rule n) g tallies x s := by
  obtain ⟨counted, made, -, wrapped⟩ := countAll_run are (rooted.ownMarks_lt generators) generators held
  have through (k : Machine) :
      throughCounted k g tallies x s = Fixing.native.through k counted x (s.skip tallies.length) := bind_of_ok made
  simp only [through]
  intro m n le ended
  exact (lasting_through (rooted.skip _) (lawful _ (Nat.le_add_right ..)) wrapped
    (arguments.later (Nat.le_add_right ..) (Nat.le_refl _)) le ended).mono (Nat.le_add_right ..)

theorem language_lawful (known : Nat) : (nothing known).Lawful .back callValue 0 :=
  nothing_lawful fun companions => companions.callValue

end

/-- Computations that last come to the same where they end with the same number. -/
theorem sameRun_of_told {known : Nat} {x y : Nat → EStateM.Result Stop Store Value} (lasting : Lasting known x)
    (lasting' : Lasting known y) {n : Nat} {tells : Int × String × List (Nat × Int × Int)}
    (first : told (x n) = some tells) (second : told (y n) = some tells) : SameRun known x y := by
  obtain ⟨ended, same⟩ := indistinct_of_told first second
  exact .of_ended lasting lasting' ended same

section

variable {g x : Value} {nest : List Nat} {tallies : List Value} {s : Store} (rooted : Rooted s)
  (generators : Settled s g) (arguments : Settled s x) (are : List.Forall₂ Value.IsTally nest tallies)
  (held : ∀ tally ∈ tallies, Settled s tally) {n : Nat} {tells tells' : Int × String × List (Nat × Int × Int)}
  (plain : told (Fixing.native.through (.ofFuel n) g x s) = some tells)
  (counted : told (throughCounted (.ofFuel n) g tallies x s) = some tells')
include rooted generators arguments are held plain counted

/-- A generator uses thunks for calls only where both its runs, without and with tallies that count it, end with
numbers that they end with when the thunks are sealed. -/
theorem UsesForCalls.of_told (routine : g.isRoutine)
    (gated : told (Fixing.native.through (levels (gating (thunkGate g) true) n) g x s) = some tells)
    (gated' : told (throughCounted (levels (gating (thunkGate g) true) n) g tallies x s) = some tells') :
    UsesForCalls g tallies x s := by
  have behind (known : Nat) (more : s.nextMark ≤ known) :
      (nothing known).Lawful .back (gating (thunkGate g) true) 0 :=
    nothing_lawful fun companions => companions.callGating <| nothing_hands (thunkGate_alike g) routine fun m own =>
      (rooted.ownMarks_lt generators m own).trans_le more
  rw [← levels_callValue] at plain counted
  refine .inr ⟨?_, ?_⟩
  · have same := sameRun_of_told (lasting_through rooted (behind _ (Nat.le_refl _)) generators arguments)
      (lasting_through rooted (language_lawful _) generators arguments) gated plain
    simpa only [CallsThunks, levels_callValue] using same
  · have same := sameRun_of_told (lasting_throughCounted rooted behind generators arguments are held)
      (lasting_throughCounted rooted (fun _ _ => language_lawful _) generators arguments are held) gated' counted
    simpa only [CallsThunks, levels_callValue] using same

/-- It goes without names of the session where both runs end with the same numbers without these. -/
theorem GoesWithout.of_told {names : List String}
    (less : told (Fixing.native.through (.ofFuel n) g x (s.forget names)) = some tells)
    (less' : told (throughCounted (.ofFuel n) g tallies x (s.forget names)) = some tells') :
    GoesWithout names g tallies x s := by
  rw [← levels_callValue] at plain counted less less'
  refine ⟨?_, ?_⟩
  · have same := sameRun_of_told
      (lasting_through (rooted.forget names) (language_lawful _) (Store.forget_settled generators)
        (Store.forget_settled arguments))
      (lasting_through rooted (language_lawful _) generators arguments) less plain
    simpa only [levels_callValue, Store.forget_nextMark] using same
  · have same := sameRun_of_told
      (lasting_throughCounted (rooted.forget names) (fun _ _ => language_lawful _) (Store.forget_settled generators)
        (Store.forget_settled arguments) are fun tally member => Store.forget_settled (held tally member))
      (lasting_throughCounted rooted (fun _ _ => language_lawful _) generators arguments are held) less' counted
    simpa only [levels_callValue, Store.forget_nextMark] using same

end

/-! Counting shows in nothing but the tallies. -/

section

variable {s : Store} {g x : Value} {nest : List Nat} {tallies : List Value}

/-- Where nothing leads to the tallies, neither the session's names, the fixed point of a generator comes to the same
counted, and the tallies count alike. -/
theorem counting_unseen (rooted : Rooted s) (generators : Settled s g) (arguments : Settled s x)
    (are : List.Forall₂ Value.IsTally nest tallies) (tallied : ∀ tally ∈ tallies, Settled s tally)
    (counting : ∀ mark ∈ nest, ∃ counts, s.Reads mark counts) (routine : g.isRoutine)
    (uses : UsesForCalls g tallies x s) (avoids : s.Avoids nest) (generator : g.avoids nest) (argument : x.avoids nest) :
    SameRun 0 (fun n => Fixing.native.through (.ofFuel n) g x s) (fun m => throughCounted (.ofFuel m) g tallies x s) ∧
      ∀ m, Ended (throughCounted (.ofFuel m) g tallies x s) → ∃ derived passed : Nat, ∀ mark ∈ nest, ∀ counts,
        s.Reads mark counts → (remains (throughCounted (.ofFuel m) g tallies x s)).Reads mark
          (counts.1 + derived * nest.count mark, counts.2 + passed * nest.count mark) := by
  have marks := rooted.ownMarks_lt generators
  obtain ⟨seals, usage, plainly, countedly⟩ := uses.gated
  obtain ⟨counted, made, counts, wrapped⟩ := countAll_run are marks generators tallied
  let t := s.skip tallies.length
  have rooted' : Rooted t := rooted.skip _
  have generators' : Settled t g := generators.later (Nat.le_add_right ..) (Nat.le_refl _)
  have arguments' : Settled t x := arguments.later (Nat.le_add_right ..) (Nat.le_refl _)
  have marks' := rooted'.ownMarks_lt generators'
  have avoids' : t.Avoids nest :=
    ⟨avoids.zero, avoids.frames, avoids.tallies, avoids.contents, avoids.tables, avoids.given, avoids.namespaces,
      avoids.entered, avoids.session⟩
  choose! starts reads using counting
  have beside := counting_beside seals rooted' avoids' starts reads routine usage generator generators' argument
    arguments' counts
  -- both runs start aside, where there is room for what the counted one makes of its own
  have first := (through_skip seals rooted routine marks generators arguments tallies.length).trans
    ((through_skip seals rooted' routine marks' generators' arguments' t.nextMark).mono (Nat.le_add_right ..))
  have last := through_skip seals rooted' routine marks' wrapped arguments' t.nextMark
  have through (k : Machine) : throughCounted k g tallies x s = Fixing.native.through k counted x t := bind_of_ok made
  simp only [through] at countedly ⊢
  refine ⟨?_, fun m ended => ?_⟩
  · have gated := beside.1.trans (last.symm.mono (Nat.zero_le _))
    exact ((plainly.symm.trans first).mono (Nat.zero_le _)).trans (gated.trans (countedly.mono (Nat.zero_le _)))
  · obtain ⟨n, same⟩ := countedly.back m ended
    obtain ⟨l, same'⟩ := last.forth n (same.symm.ended ended)
    obtain ⟨derived, passed, counts⟩ := beside.2 l (same'.ended (same.symm.ended ended))
    refine ⟨derived, passed, fun mark member shown read => ?_⟩
    have begun := (reads mark member).symm.trans read
    simp only [Option.some.injEq, Prod.mk.injEq, Value.int.injEq] at begun
    obtain rfl : starts mark = shown := Prod.ext begun.1 begun.2
    have below := rooted.tally_lt read
    exact (counts mark member).of_counted ((same.counts mark below).symm.trans
      (same'.counts mark (below.trans_le (Nat.le_add_right ..))))

end

/-- A generator of the factorial function as a procedure of the calculus. -/
def factorialProcedure : Term :=
  .app (.prim .lambda) [.fn ["π"] (.fn ["n"] (.ite (.binary .equal (.var "n") (.num 0)) (.num 1)
    (.binary .mul (.var "n") (.app (.app (.attr (.var "π") "self") []) [.binary .sub (.var "n") (.num 1)])))),
    .list [.lit (.str "self")]]

/-- A session that defines two tallies, the first of which starts at five, and then the generator. -/
def factorialSession : Scope × Store :=
  Session.ran [("x", .num 3), ("g", factorialProcedure), ("u", .define "u" (.app (.var "ThunkTally") [])),
    ("t", .define "t" (.app (.var "ThunkTally") [.num 5]))]

/-- The generator as a value of the session. -/
def factorialMade : Value := (factorialSession.1.lookup "g").getD .none

/-- The tallies of the session: the first one counts outside and inside the second one. -/
def factorialTallies : List Value :=
  [.tally 16 (.int 5) (.int 0), .tally 17 (.int 0) (.int 0), .tally 16 (.int 5) (.int 0)]

theorem factorialSession_scope : factorialSession.1 =
    [("x", .int 3), ("g", factorialMade), ("u", .tally 17 (.int 0) (.int 0)), ("t", .tally 16 (.int 5) (.int 0))] := rfl

/-- The generator sees the names of the tallies, and does not use them. -/
theorem factorialSession_avoids : (factorialSession.2.forget ["t", "u"]).Avoids [16, 17, 16] := by
  refine ⟨by decide, fun id below => ?_, by decide, by decide, by decide, by decide, by decide, by decide, by decide⟩
  obtain rfl : id = 0 := Nat.lt_one_iff.mp below
  exact ⟨by decide, by decide, by decide⟩

theorem factorialTallies_are : List.Forall₂ Value.IsTally [16, 17, 16] factorialTallies :=
  .cons ⟨_, _, rfl⟩ (.cons ⟨_, _, rfl⟩ (.cons ⟨_, _, rfl⟩ .nil))

theorem factorialTallies_held : ∀ tally ∈ factorialTallies, ∃ name, (name, tally) ∈ factorialSession.1 := by
  rw [factorialSession_scope, factorialTallies]
  simp

theorem factorialTallies_read : ∀ mark ∈ [16, 17, 16], ∃ counts, factorialSession.2.Reads mark counts := by
  have first : factorialSession.2.Reads 16 (5, 0) := rfl
  have second : factorialSession.2.Reads 17 (0, 0) := rfl
  simp only [List.forall_mem_cons, List.not_mem_nil, false_implies, implies_true, and_true]
  exact ⟨⟨_, first⟩, ⟨_, second⟩, ⟨_, first⟩⟩

/-- Neither the names nor the seals make a difference to the generator. -/
theorem factorialMade_used : GoesWithout ["t", "u"] factorialMade factorialTallies (.int 3) factorialSession.2 ∧
    UsesForCalls factorialMade factorialTallies (.int 3) (factorialSession.2.forget ["t", "u"]) := by
  have session : Held factorialSession.2 factorialSession.1 := .ran _
  have plain : told (Fixing.native.through (.ofFuel 22) factorialMade (.int 3) factorialSession.2) =
      some (6, "", [(16, 5, 0), (17, 0, 0)]) := by decide +kernel
  have counted : told (throughCounted (.ofFuel 22) factorialMade factorialTallies (.int 3) factorialSession.2) =
      some (6, "", [(16, 13, 6), (17, 4, 3)]) := by decide +kernel
  have less : told (Fixing.native.through (.ofFuel 22) factorialMade (.int 3)
      (factorialSession.2.forget ["t", "u"])) = some (6, "", [(16, 5, 0), (17, 0, 0)]) := by decide +kernel
  have less' : told (throughCounted (.ofFuel 22) factorialMade factorialTallies (.int 3)
      (factorialSession.2.forget ["t", "u"])) = some (6, "", [(16, 13, 6), (17, 4, 3)]) := by decide +kernel
  have gated : told (Fixing.native.through (levels (gating (thunkGate factorialMade) true) 22) factorialMade (.int 3)
      (factorialSession.2.forget ["t", "u"])) = some (6, "", [(16, 5, 0), (17, 0, 0)]) := by decide +kernel
  have gated' : told (throughCounted (levels (gating (thunkGate factorialMade) true) 22) factorialMade factorialTallies
      (.int 3) (factorialSession.2.forget ["t", "u"])) = some (6, "", [(16, 13, 6), (17, 4, 3)]) := by decide +kernel
  have rooted := session.rooted.1
  have generator : Settled factorialSession.2 factorialMade := session.settled (.tail _ (.head _))
  have argument : Settled factorialSession.2 (.int 3) := session.settled (.head _)
  have held (tally : Value) (member : tally ∈ factorialTallies) : Settled factorialSession.2 tally :=
    (factorialTallies_held tally member).elim fun _ listed => session.settled listed
  exact ⟨.of_told rooted generator argument factorialTallies_are held plain counted less less',
    .of_told (rooted.forget _) (Store.forget_settled generator) (Store.forget_settled argument) factorialTallies_are
      (fun tally member => Store.forget_settled (held tally member)) less less' (by decide) gated gated'⟩

/-- A tally whose derivations start as given. -/
def tallyFrom (derivations : Value) : Value := .tally 16 derivations (.int 0)

/-- The names of a session in which the tally is made, and then a generator that gives a function of one parameter. -/
def tallyScope (derivations : Value) (body : Term) : Scope :=
  [("g", .closure 17 { name := "<lambda>", path := "<lambda>", params := ["self"], plain := true } (.fn ["i"] body)
    [("t", tallyFrom derivations)]), ("t", tallyFrom derivations)]

/-- The generator. -/
def generatorOf (derivations : Value) (body : Term) : Value := ((tallyScope derivations body).lookup "g").getD .none

/-- The store of the session. -/
def tallyStore (derivations : Value) : Store :=
  { Session.unbounded.skip 2 with tallies := [(16, derivations, .int 0)] }

/-- What the fixed point of the generator, counted by the tally, comes to for zero. -/
def countedly (derivations : Value) (body : Term) (m : Nat) : EStateM.Result Stop Store Value :=
  throughCounted (.ofFuel m) (generatorOf derivations body) [tallyFrom derivations] (.int 0) (tallyStore derivations)

theorem countedly_eq (derivations : Value) (body : Term) (m : Nat) : countedly derivations body m =
    Fixing.native.through (.ofFuel m)
      (.counted 18 "counting(<lambda>)" (generatorOf derivations body) (tallyFrom derivations)) (.int 0)
        ((tallyStore derivations).skip 1) := by
  have made : countAll (generatorOf derivations body) [tallyFrom derivations] (tallyStore derivations) =
      .ok (.counted 18 "counting(<lambda>)" (generatorOf derivations body) (tallyFrom derivations))
        ((tallyStore derivations).skip 1) := rfl
  exact bind_of_ok made

/-- The function tells how often the tally has counted a derivation. -/
def telling : Term := .attr (.var "t") "derivations"

theorem telling_counted (m : Nat) : answer (countedly (.int 0) telling m) = none ∨
    answer (countedly (.int 0) telling m) = some (.ok (.int 1)) := by
  obtain ⟨t, stops | ends⟩ : ∃ t, countedly (.int 0) telling m = .error .outOfFuel t ∨
      countedly (.int 0) telling m = .ok (.int 1) t := by
    rw [countedly_eq]
    obtain _ | _ | _ | m := m
    · exact ⟨_, .inl rfl⟩
    · exact ⟨_, .inl rfl⟩
    · exact ⟨_, .inl rfl⟩
    · exact ⟨_, .inr rfl⟩
  · exact .inl (stops ▸ rfl)
  · exact .inr (ends ▸ rfl)

theorem worded_counted (m : Nat) : answer (countedly (.str "a") (.num 1) m) = none ∨
    answer (countedly (.str "a") (.num 1) m) = some (.error "TypeError") := by
  obtain ⟨t, stops | ⟨f, ends, kind⟩⟩ : ∃ t, countedly (.str "a") (.num 1) m = .error .outOfFuel t ∨
      ∃ f, countedly (.str "a") (.num 1) m = .error (.fault f) t ∧ f.kind = "TypeError" := by
    rw [countedly_eq]
    obtain _ | _ | m := m
    · exact ⟨_, .inl rfl⟩
    · exact ⟨_, .inl rfl⟩
    · exact ⟨_, .inr ⟨_, rfl, rfl⟩⟩
  · exact .inl (stops ▸ rfl)
  · rw [ends, answer, kind]
    exact .inr rfl

theorem held_tallyScope {body : Term} {derivations : Value} (program : Term)
    (run : Session.ran [("g", .fn ["self"] (.fn ["i"] body)), ("t", .app (.var "ThunkTally") [program])] =
      (tallyScope derivations body, tallyStore derivations)) :
    Held (tallyStore derivations) (tallyScope derivations body) := by
  have held := Held.ran [("g", .fn ["self"] (.fn ["i"] body)), ("t", .app (.var "ThunkTally") [program])]
  rwa [run] at held

end Machine
end Knot
