import Knot.Proofs.Recursion.Endless

/-!
Filling the stack on purpose, for every ceiling. A function without a base case that is called in a block
with a headroom ends with a full stack. The report of it tells of one derivation at least, whatever the
headroom is, unless the block cannot be entered or the function was never made.
-/

namespace Knot

open Run Store FixedPoint Term

/-- What counts as so many frames: a number or a truth value. -/
inductive Value.Counts : Value → Int → Prop
  | int (h : Int) : Counts (.int h) h
  | bool (b : Bool) : Counts (.bool b) b.toNat

section

variable {s t u : Store} {frames v : Value} {h : Int} {n room manager : Nat}

/-- The manager that leaves so much headroom below the caller. -/
theorem headroom_eq (counts : frames.Counts h) (s : Store) :
    headroom frames s = .ok (.manager (s.nextMark + 1) (.int (s.stack.depth + h))) (s.skip 2) := by
  cases counts with
  | int => rfl
  | bool b => cases b <;> rfl

/-- A program that asks for one is a call deeper. -/
theorem headroom_called (given : s.stack.room = some room) (fuel : room < n) (counts : frames.Counts h)
    (called : (Machine.ofFuel n).app (.builtin .recursionHeadroom) [frames] s = .ok v t) :
    v = .manager (s.nextMark + 1) (.int (s.stack.depth + 1 + h)) ∧ t = s.skip 2 := by
  rcases bounded_or_full given fuel with ⟨levels, -, bounded⟩ | full
  · cases levels with
    | zero => cases called.symm.trans (call_none bounded)
    | succ levels =>
        obtain ⟨k, -, counted, full, run⟩ := call_some (.builtin .recursionHeadroom) [frames] bounded
        have inner : Machine.callValue k (.builtin .recursionHeadroom) [frames] [] s.inside =
            .ok (.manager (s.nextMark + 1) (.int (s.stack.depth + 1 + h))) (s.inside.skip 2) :=
          headroom_eq counts s.inside
        cases called.symm.trans (run.trans (deeper_of_ok counted full inner))
        exact ⟨rfl, rfl⟩
  · cases called.symm.trans (call_full given fuel full)

theorem limitOf_int (depth : Nat) (i : Int) : limitOf depth (.int i) =
    if !Word.isShort i then throw (.overflow .tooLargeForLimit)
    else if i ≤ 0 then throw (.value .limitTooSmall)
    else if i ≤ depth then throw .stackExhausted
    else return i.toNat := rfl

/-- A number that can be set as the limit is short, and greater than the depth. -/
theorem limitOf_sets {depth limit : Nat} {i : Int} (set : limitOf depth (.int i) = .ok limit) :
    (limit : Int) = i ∧ depth < limit ∧ i < Word.shortEnd := by
  rw [limitOf_int] at set
  split at set
  · cases set
  · rename_i fits
    split at set
    · cases set
    · split at set
      · cases set
      · cases set
        simp only [Bool.not_eq_true', Bool.not_eq_false, Word.isShort, Bool.and_eq_true, decide_eq_true_eq] at fits
        exact ⟨by omega, by omega, fits.2⟩

/-- Where a number cannot be set as the limit, it is too large or too small, or the depth has reached it. -/
theorem limitOf_refuses {depth : Nat} {i : Int} {f : Fault} (refused : limitOf depth (.int i) = .error f) :
    f = .overflow .tooLargeForLimit ∨ f = .value .limitTooSmall ∨ f = .stackExhausted := by
  rw [limitOf_int] at refused
  split at refused
  · cases refused
    exact .inl rfl
  · split at refused
    · cases refused
      exact .inr (.inl rfl)
    · split at refused
      · cases refused
        exact .inr (.inr rfl)
      · cases refused

end

/-! Blocks. -/

section

variable {mark : Nat} {G : Ground mark} {g self f x v : Value} {d c : Int} {n room manager limit : Nat} {s t u : Store}

theorem SameCount.of_eq (marks : s.nextMark ≤ t.nextMark) (tallies : t.tallies = s.tallies) : SameCount mark s t :=
  fun _ _ tallied => ⟨tallied.made.trans_le marks, by rw [tallies]; exact tallied.counts⟩

/-- A block that fills the stack leaves its manager, which leaves the tallies alone. -/
theorem underLimit_full (mark : Nat) {α : Type} {x : Run α} {limit : Value} (entered : enter manager limit s = .ok v t)
    (filled : x t = .error (.fault .stackExhausted) u) :
    ∃ u', underLimit manager limit x s = .error (.fault .stackExhausted) u' ∧ SameCount mark u u' := by
  have left : ∃ u', leave manager u = .ok () u' ∧ SameCount mark u u' := by
    rw [leave_eq]
    split
    · exact ⟨_, rfl, .of_eq (Nat.le_refl _) rfl⟩
    · exact ⟨_, rfl, .of_eq (Nat.le_refl _) rfl⟩
  obtain ⟨u', left, same⟩ := left
  refine ⟨u', ?_, same⟩
  unfold underLimit
  rw [bind_of_ok (discard_of_ok entered)]
  exact bind_of_error ((recover_of_fault filled).trans (bind_of_ok left))

/-- A call of a function without a base case in a block, under the limit that the block sets. -/
theorem Endless.fills (endless : Endless G g) (is : IsSelf mark g self) (baseless : Baseless G self f)
    (given : s.stack.room = some room) (fuel : room < n) (tallied : Tallied mark s d c) {i : Int}
    (entered : enter manager (.int i) s = .ok v t) (takes : G.takes t x) :
    ∃ u d' c', underLimit manager (.int i) ((Machine.ofFuel n).app f [x]) s = .error (.fault .stackExhausted) u ∧
      Tallied mark u d' c' ∧ d ≤ d' ∧ d' ≤ d + (i - s.stack.depth - 1) ∧ s.stack.depth < i ∧ i < Word.shortEnd := by
  have entry := enter_cases manager (.int i) s
  rw [entered] at entry
  cases entry with
  | @entered limit _ set =>
      obtain ⟨same, above, short⟩ := limitOf_sets set
      have tallied' : Tallied mark (s.under manager limit) d c := ⟨tallied.made, tallied.counts⟩
      have filled : ∃ u d' c', (Machine.ofFuel n).app f [x] (s.under manager limit) =
          .error (.fault .stackExhausted) u ∧ Tallied mark u d' c' ∧ d ≤ d' ∧ d' ≤ d + (i - s.stack.depth - 1) := by
        rcases bounded_or_full (s := s.under manager limit) given fuel with ⟨levels, room', bounded⟩ | full
        · obtain ⟨u, d', c', run, tallied'', least, most⟩ := endless.exhausts bounded takes tallied' is baseless
          have fits : s.stack.depth + levels ≤ limit := room' ▸ Nat.min_le_right _ _
          exact ⟨u, d', c', run, tallied'', least, by omega⟩
        · exact ⟨_, d, c, call_full given fuel full, ⟨tallied'.made, tallied'.counts⟩, Int.le_refl _, by omega⟩
      obtain ⟨u, d', c', run, tallied'', least, most⟩ := filled
      obtain ⟨u', left, kept⟩ := underLimit_full mark entered run
      exact ⟨u', d', c', left, kept _ _ tallied'', least, most, by omega, short⟩

/-- What building gives under a ceiling, with the first derivation, or the stack is full. -/
theorem Endless.build (endless : Endless G g) (given : s.stack.room = some room) (fuel : room < n)
    (ready : G.ready s) (tallied : Tallied mark s d c) (made : Nat) (name : String)
    (built : FixedPoint.build (.ofFuel n) (countedOn mark made name g) s = .ok f t) :
    ∃ self c', IsSelf mark g self ∧ Baseless G self f ∧ Tallied mark t (d + 1) c' ∧ t.stack = s.stack := by
  let s₁ := s.did (.built (countedOn mark made name g))
  have derives : FixedPoint.derive (.ofFuel n) (countedOn mark made name g) s₁ = .ok f t := built
  rcases bounded_or_full (s := s₁) given fuel with ⟨levels, -, bounded⟩ | full
  · have derived := endless.derive bounded (G.steady (.did mark s _) ready) ⟨tallied.made, tallied.counts⟩ made name
    rw [derives] at derived
    cases derived with
    | made _ is baseless _ _ tallied stack => exact ⟨_, _, is, baseless, tallied, stack⟩
  · cases derives.symm.trans (derive_full (s := s₁) given fuel full)

/-- In a block with so much headroom a function without a base case ends with a full stack. -/
theorem Endless.fillsBlock (endless : Endless G g) (is : IsSelf mark g self) (baseless : Baseless G self f)
    (given : s.stack.room = some room) (fuel : room < n) (tallied : Tallied mark s d c) {frames limit : Value} {h : Int}
    (counts : frames.Counts h)
    (called : (Machine.ofFuel n).app (.builtin .recursionHeadroom) [frames] s = .ok (.manager manager limit) t)
    (entered : enter manager limit t = .ok v u) (takes : G.takes u x) :
    ∃ u' d' c', Form.managing ((Machine.ofFuel n).app (.builtin .recursionHeadroom) [frames])
        (fun _ => (Machine.ofFuel n).app f [x]) s = .error (.fault .stackExhausted) u' ∧
      Tallied mark u' d' c' ∧ d ≤ d' ∧ d' ≤ d + h := by
  obtain ⟨same, rfl⟩ := headroom_called given fuel counts called
  cases same
  have tallied' : Tallied mark (s.skip 2) d c := ⟨tallied.made.trans_le (Nat.le_add_right _ 2), tallied.counts⟩
  obtain ⟨u', d', c', run, tallied'', least, most, -⟩ :=
    endless.fills is baseless (s := s.skip 2) given fuel tallied' entered takes
  have depth : (s.skip 2).stack.depth = s.stack.depth := rfl
  refine ⟨u', d', c', ?_, tallied'', least, by omega⟩
  rw [Form.managing, bind_of_ok called]
  exact run

end

/-! The function that is unfolded to fill the stack. -/

namespace Forever

/-- It takes numbers, wherever it is called. -/
def ground (mark : Nat) : Ground mark := ⟨fun _ => True, fun _ x => ∃ i, x = .int i, fun _ _ => trivial⟩

theorem function_baseless (mark m : Nat) (self : Value) : Baseless (ground mark) self (function self m) := by
  rintro levels k s _ bounded ⟨i, rfl⟩
  have refused (t : Store) : SameCount mark t (t.did .refused) := .of_eq (Nat.le_refl _) rfl
  have moved (t : Store) (depth : Nat) : SameCount mark t (atDepth depth t) := .of_eq (Nat.le_refl _) rfl
  cases levels with
  | zero => exact .inl ⟨_, call_none bounded, refused s⟩
  | succ levels =>
      obtain ⟨k', bounded', counted, full, run⟩ := call_some (function self m) [.int i] bounded
      have inner := body_eval k' self i s.inside
      refine .inr ⟨levels, k', s.inside, Nat.lt_succ_self _, bounded', moved s _, trivial, ?_, ?_⟩
      · intro t asked
        exact ⟨_, run.trans (deeper_of_error counted full (inner.trans (bind_of_error asked))), moved t _⟩
      · intro w v asked stack _
        have less : Run.binary .sub (.int i) (.int 1) v = .ok (.int (i - 1)) (v.skip 1) := rfl
        refine .inr ⟨levels, k', v.skip 1, .int (i - 1), Nat.lt_succ_self _, bounded'.later stack,
          .of_eq (Nat.le_succ _) rfl, ⟨_, rfl⟩, ?_⟩
        intro t called
        have whole := inner.trans ((bind_of_ok asked).trans ((bind_of_ok less).trans (bind_of_error called)))
        exact ⟨_, run.trans (deeper_of_error counted full whole), moved t _⟩

theorem forever_endless (mark e : Nat) : Endless (ground mark) (.closure e Builtin.endless Builtin.forever []) := by
  intro levels k s self is bounded _
  cases levels with
  | zero => exact .inl ⟨_, call_none bounded, .of_eq (Nat.le_refl _) rfl⟩
  | succ levels =>
      obtain ⟨k', -, counted, full, run⟩ :=
        call_some (.closure e Builtin.endless Builtin.forever []) [self] bounded
      have makes : Machine.callValue k' (.closure e Builtin.endless Builtin.forever []) [self] [] s.inside =
          .ok (function self s.nextMark) (s.inside.skip 1) := by
        have binds : Builtin.endless.bind [self] [] = .ok [("self", self)] := rfl
        rw [Machine.callValue, Machine.callClosure, binds]
        rfl
      exact .inr ⟨_, _, run.trans (deeper_of_ok counted full makes), .of_eq (Nat.le_succ _) rfl, rfl, trivial, rfl,
        function_baseless mark _ self⟩

end Forever

/-- What comes of filling the stack on purpose at a depth, under a ceiling. -/
inductive Blown (depth : Nat) (h : Int) (ceiling : Nat) : EStateM.Result Stop Store Value → Prop
  /-- There is a report of the derivations. -/
  | reported {d : Nat} {t : Store} : 1 ≤ d → Blown depth h ceiling (.ok (.str (exhaustionText d)) t)
  /-- The block cannot be entered. -/
  | unentered {f : Fault} {t : Store} : limitOf depth (.int (depth + h)) = .error f →
      f = .overflow .tooLargeForLimit ∨ f = .value .limitTooSmall → Blown depth h ceiling (.error (.fault f) t)
  /-- There is no room to make the function, before the block. -/
  | unmade {t : Store} : ceiling < depth + 2 → Blown depth h ceiling (.error (.fault .stackExhausted) t)

/-- A full stack is reported, with the derivations that the tally shows. -/
def Forever.reporting (mark : Nat) : Fault → Run Value
  | .stackExhausted => do Builtin.exhaustionReport (← getAttribute (tally mark) "derivations")
  | f => fault f

/-- The function is called in a block with a headroom, and what fills the stack there is reported. -/
def Forever.unfolding (k : Machine) (mark : Nat) (frames function : Value) : Run Value :=
  recover
    (do
      Functor.discard (Builtin.under (← headroom frames) (k.app function [.int 1]))
      fault (← mismatch .none (.str "RecursionError") (.str "no base case")))
    (reporting mark)

section

variable {s t : Store} {frames : Value} {h d c : Int} {mark n room : Nat}

theorem reported_of_tallied (tallied : Tallied mark s d c) (one : 1 ≤ d) (short : d < Word.shortEnd) :
    ∃ m : Nat, 1 ≤ m ∧ Forever.reporting mark .stackExhausted s = .ok (.str (exhaustionText m)) s := by
  obtain ⟨m, rfl⟩ := Int.eq_ofNat_of_zero_le (show 0 ≤ d by omega)
  exact ⟨m, by omega, (bind_of_ok (getAttribute_counter _ _ tallied).1).trans (report_eq s short)⟩

/-- The report, once the function is made. -/
theorem unfolding_blown {m made : Nat} {self : Value} (new : t.Fresh)
    (given : t.stack.room = some room) (fuel : room < n) (counts : frames.Counts h)
    (is : IsSelf mark (.closure made Builtin.endless Builtin.forever []) self) (tallied : Tallied mark t 1 c)
    (ceiling : Nat) :
    Blown t.stack.depth h ceiling (Forever.unfolding (.ofFuel n) mark frames (Forever.function self m) t) := by
  let manager := t.nextMark + 1
  let u := t.skip 2
  have tallied' : Tallied mark u 1 c := ⟨tallied.made.trans_le (Nat.le_add_right _ 2), tallied.counts⟩
  have stopped {f : Fault} {u' : Store} (run : underLimit manager (.int (t.stack.depth + h))
      ((Machine.ofFuel n).app (Forever.function self m) [.int 1]) u = .error (.fault f) u') : (do
        Functor.discard (Builtin.under (← headroom frames) ((Machine.ofFuel n).app (Forever.function self m) [.int 1]))
        fault (← mismatch .none (.str "RecursionError") (.str "no base case")) : Run Value) t =
          .error (.fault f) u' := by
    rw [bind_of_ok (headroom_eq counts t)]
    exact bind_of_error (discard_of_error run)
  have entry := enter_cases manager (.int (t.stack.depth + h)) u
  unfold Forever.unfolding
  generalize result : enter manager (.int (t.stack.depth + h)) u = r at entry
  cases entry with
  | again known =>
      have unknown : u.entered.lookup manager = none := new.entered manager (Nat.le_succ _)
      rw [unknown] at known
      cases known
  | @refused f _ refused =>
      have run := stopped (show underLimit manager _ _ u = _ from bind_of_error (discard_of_error result))
      rw [recover_of_fault run]
      rcases limitOf_refuses refused with rfl | rfl | rfl
      · exact .unentered refused (.inl rfl)
      · exact .unentered refused (.inr rfl)
      · have tallied'' : Tallied mark (u.used manager) 1 c := ⟨tallied'.made, tallied'.counts⟩
        obtain ⟨m, one, report⟩ := reported_of_tallied tallied'' (Int.le_refl 1) (by decide)
        rw [report]
        exact .reported one
  | entered =>
      obtain ⟨u', d', c', run, tallied'', least, most, above, short⟩ :=
        (Forever.forever_endless mark made).fills is (Forever.function_baseless mark m self) (s := u) given fuel tallied'
          result ⟨1, rfl⟩
      have depth : u.stack.depth = t.stack.depth := rfl
      rw [recover_of_fault (stopped run)]
      obtain ⟨m, one, report⟩ := reported_of_tallied tallied'' (by omega) (by omega)
      rw [report]
      exact .reported one

/-- Filling the stack on purpose ends with a report, or with an error of entering the block, or the function
is not made. -/
theorem blowStack_blown (new : s.Fresh) (given : s.stack.room = some room) (fuel : room < n)
    (counts : frames.Counts h) :
    Blown s.stack.depth h (min room s.stack.limit) (Builtin.blowStack (.ofFuel n) frames s) := by
  -- the tally, the generator and its function
  let mark := s.nextMark
  let s₁ : Store := { s with nextMark := mark + 1, tallies := s.tallies.assign mark (.int 0, .int 0) }
  have started : Counted s mark 0 s₁ :=
    ⟨⟨rfl, Nat.le_succ _, Nat.le_refl _, fun _ _ => rfl, fun _ _ => rfl,
        fun other known => Bindings.lookup_assign_of_ne _ _ known.ne, fun _ _ => rfl,
        fun new => { (Quiet.told s 1 s.journal s.deeds).fresh new with }⟩,
      Nat.le_refl _, 0, Nat.lt_succ_self _, Bindings.lookup_assign_self _ _ _⟩
  let generator := Forever.generator mark (mark + 2) (mark + 1) "counting(<lambda>)"
  let s₃ : Store := Store.did { s₁ with nextMark := mark + 3 } (.built generator)
  have prepared : Counted s mark 0 s₃ := (started.later (Quiet.told s₁ 2 s.journal s.deeds)).did (.built generator)
  have begins : Builtin.blowStack (.ofFuel n) frames s =
      (derive (.ofFuel n) generator >>= Forever.unfolding (.ofFuel n) mark frames) s₃ := rfl
  rw [begins]
  rcases bounded_or_full (s := s₃) given fuel with ⟨levels, ceiling, bounded⟩ | full
  · have built : Unfolds s mark _ _ (Forever.IsFunction mark (mark + 2) (mark + 1) "counting(<lambda>)") _
        (derive (.ofFuel n) generator s₃) := Forever.derive_unfolds prepared bounded
    generalize enough : decide (2 ≤ levels) = sufficient at built
    generalize derived : derive (.ofFuel n) _ s₃ = r at built
    cases built with
    | @value f t isFunction counted stack =>
        obtain ⟨c', thunk, m, rfl⟩ := isFunction
        obtain ⟨calls, tallied⟩ := counted.tallied
        have some : 2 ≤ levels := of_decide_eq_true enough
        have once : 0 + min 1 levels = 1 := by omega
        rw [once] at tallied
        have same : t.stack = s.stack := stack
        rw [← same] at given
        have new' : t.Fresh := { counted.quiet.fresh new with }
        rw [bind_of_ok derived, ← same]
        exact unfolding_blown new' given fuel counts ⟨c', thunk, mark + 2, _, rfl⟩ tallied _
    | full counted stack =>
        rw [bind_of_error derived]
        have few : ¬2 ≤ levels := of_decide_eq_false enough
        have same : min room s.stack.limit = s.stack.depth + levels := ceiling
        exact .unmade (by omega)
  · rw [bind_of_error (derive_full (s := s₃) given fuel full)]
    have past : min room s.stack.limit ≤ s.stack.depth := over_of_full given full
    exact .unmade (by omega)

/-- So it does where a program calls for it, one level deeper. -/
theorem blownStack_called (new : s.Fresh) (given : s.stack.room = some room) (fuel : room < n)
    (counts : frames.Counts h) :
    Blown (s.stack.depth + 1) h (min room s.stack.limit)
      ((Machine.ofFuel (n + 1)).app (.builtin .blownStack) [frames] s) := by
  cases full : s.stack.full with
  | true =>
      rw [Machine.app, call_full given (Nat.lt_succ_of_lt fuel) full]
      have past := over_of_full given full
      exact .unmade (by omega)
  | false =>
      have counted : s.stack.room.isNone = false := by
        rw [given]
        rfl
      have inner := blowStack_blown (s := s.inside) (new.atDepth _) given fuel counts
      change Blown _ h _ (deeper (Builtin.blowStack (.ofFuel n) frames) s)
      cases run : Builtin.blowStack (.ofFuel n) frames s.inside with
      | ok v t =>
          rw [deeper_of_ok counted full run]
          rw [run] at inner
          cases inner with
          | reported one => exact .reported one
      | error e t =>
          rw [deeper_of_error counted full run]
          rw [run] at inner
          cases inner with
          | unentered refused kinds => exact .unentered refused kinds
          | unmade few => exact .unmade few

end

/-! Every generator without a base case. -/

/-- The fixed point of a generator, wrapped so that a new tally counts its derivations. -/
def countedFixedPoint (k : Machine) (g : Value) : Run Value := do
  FixedPoint.build k (← counting g (← tally (.int 0) (.int 0)))

/-- A call in a block with a headroom. -/
def calledWithin (k : Machine) (frames f x : Value) : Run Value :=
  Form.managing (k.app (.builtin .recursionHeadroom) [frames]) fun _ => k.app f [x]

/-- A block with a headroom can be entered, and the function takes the argument there. -/
def Admits (k : Machine) (takes : Store → Value → Prop) (frames x : Value) (s : Store) : Prop :=
  ∃ manager limit t v u, k.app (.builtin .recursionHeadroom) [frames] s = .ok (.manager manager limit) t ∧
    enter manager limit t = .ok v u ∧ takes u x

/-- A missing base case always exhausts the stack, and boundedly: in a block with a headroom that can be entered
no call of the fixed point returns, and there are as many derivations as the headroom has frames, and one more,
at most. So whatever the headroom is, what fills the stack on purpose is reported with one derivation at least,
or the block cannot be entered, or the function cannot be made before it. -/
theorem missing_base_case_exhausts {n room : Nat} (fuel : room < n) :
    (∀ (g f frames x : Value) (h : Int) (s t u : Store) (G : Ground s.nextMark),
      Endless G g → G.ready s → s.stack.room = some room → countedFixedPoint (.ofFuel n) g s = .ok f t →
      SameCount s.nextMark t u → u.stack.room = some room → frames.Counts h →
      Admits (.ofFuel n) G.takes frames x u →
      ∃ u' d c, calledWithin (.ofFuel n) frames f x u = .error (.fault .stackExhausted) u' ∧
        Tallied s.nextMark u' d c ∧ 1 ≤ d ∧ d ≤ h + 1) ∧
    ∀ (frames : Value) (h : Int) (s : Store), s.Fresh → s.stack.room = some room → frames.Counts h →
      Blown (s.stack.depth + 1) h (min room s.stack.limit)
        ((Machine.ofFuel (n + 1)).app (.builtin .blownStack) [frames] s) := by
  refine ⟨fun g f frames x h s t u G endless ready given built kept given' counts admits => ?_,
    fun frames h s new given counts => blownStack_called new given fuel counts⟩
  obtain ⟨manager, limit, t', v, u', called, entered, takes⟩ := admits
  let s₁ : Store := { s.skip 1 with tallies := s.tallies.assign s.nextMark (.int 0, .int 0) }
  let name := "counting(" ++ (g.ownName? s₁.frame).getD "g" ++ ")"
  have tallied : Tallied s.nextMark (s₁.skip 1) 0 0 :=
    ⟨Nat.lt_add_right 1 (Nat.lt_succ_self _), Bindings.lookup_assign_self _ _ _⟩
  have idle : Idle s.nextMark s (s₁.skip 1) :=
    ⟨rfl, Nat.le_add_right _ 2, fun _ apart => Bindings.lookup_assign_of_ne _ _ apart, rfl⟩
  have builds : FixedPoint.build (.ofFuel n) (countedOn s.nextMark s₁.nextMark name g) (s₁.skip 1) = .ok f t := built
  obtain ⟨self, c, is, baseless, tallied', -⟩ :=
    endless.build (s := s₁.skip 1) given fuel (G.steady idle ready) tallied s₁.nextMark name builds
  obtain ⟨u'', d, c', run, tallied'', least, most⟩ :=
    endless.fillsBlock is baseless given' fuel (kept _ _ tallied') counts called entered takes
  exact ⟨u'', d, c', run, tallied'', by omega, by omega⟩

theorem Session.fresh_start : Session.start.Fresh :=
  ⟨by decide, by decide, fun _ _ => rfl, fun _ _ => rfl, fun _ _ => rfl, fun _ _ => rfl, fun _ _ _ => rfl⟩

/-- The counted fixed point in a session that starts. -/
def Forever.made : Run Value :=
  countedFixedPoint (.ofFuel Session.fuel) (.closure 15 Builtin.endless Builtin.forever [])

/-- In a session that starts, the function without a base case exhausts fifty frames. -/
theorem missing_base_case_exhausts_started :
    (∃ f u d c, Forever.made Session.start = .ok f (Forever.made.after Session.start) ∧
      calledWithin (.ofFuel Session.fuel) (.int 50) f (.int 1) (Forever.made.after Session.start) =
        .error (.fault .stackExhausted) u ∧ Tallied 16 u d c ∧ 1 ≤ d ∧ d ≤ 51) ∧
    Blown 17 50 10000 ((Machine.ofFuel (Session.fuel + 1)).app (.builtin .blownStack) [.int 50] Session.start) := by
  have fuel : Session.room < Session.fuel := by decide
  let f := Forever.function (Forever.self 16 17 15 "counting(<lambda>)" 20 18) 21
  have built : Forever.made Session.start = .ok f (Forever.made.after Session.start) := rfl
  have admits : Admits (.ofFuel Session.fuel) (Forever.ground 16).takes (.int 50) (.int 1)
      (Forever.made.after Session.start) := ⟨23, .int 67, _, _, _, rfl, rfl, 1, rfl⟩
  refine ⟨?_, (missing_base_case_exhausts fuel).2 (.int 50) 50 Session.start Session.fresh_start rfl (.int 50)⟩
  obtain ⟨u, d, c, run, tallied, least, most⟩ := (missing_base_case_exhausts fuel).1 _ f (.int 50) (.int 1) 50
    Session.start _ _ (Forever.ground 16) (Forever.forever_endless 16 15) trivial rfl built (fun _ _ => id) rfl (.int 50)
    admits
  exact ⟨f, u, d, c, built, run, tallied, least, most⟩

/-- Whether the tally of a fixed point shows no more derivations than so many frames and one, after the fixed point
was called with one in a block with that headroom. -/
def trial (frames : Int) (body : Term) : Term :=
  letIn "t" (app (var "ThunkTally") [])
    (letIn "f" (app (prim .fixedPoint) [app (prim .counting) [fn ["self"] (fn ["i"] body), var "t"]])
      (seq [caught (within (app (prim .recursionHeadroom) [num frames]) "h" (app (var "f") [num 1])),
        binary .lessEqual (attr (var "t") "derivations") (num (frames + 1))]))

/-- What a function without a base case does with the argument of its next call. -/
def again (e : Term) : Term := app (app (var "self") []) [e]

/-- It does something else many times while it works out that argument, but only once in all. -/
def whileAgain (e : Term) : Term :=
  again (ite (binary .less (var "i") (num 1)) (num 0) (seq (List.replicate 60 e ++ [num 0])))

/-- What a program in a session that starts finds to be true or not. -/
def verdict (t : Term) : Option Bool :=
  match EStateM.run' (t.eval (.ofFuel Session.fuel) []) Session.start with
  | some (.bool b) => some b
  | _ => none

/-- There are more derivations where the argument of the next call asks for the function as well, where the function
enters a block of its own, and where something else counts on the tally. And the stack can be full before
the function is made. -/
theorem derivations_exceed_frames :
    verdict (trial 50 (whileAgain (app (var "self") []))) = some false ∧
    verdict (trial 30 (ite (binary .less (var "i") (num 1)) (again (num 0))
      (within (app (prim .recursionHeadroom) [num 300]) "h" (again (num 0))))) = some false ∧
    verdict (trial 50 (whileAgain
      (app (app (prim .counting) [fn ["s"] (fn ["j"] (var "j")), var "t"]) [num 0]))) = some false ∧
    verdict (binary .equal (lit (.str "RecursionError")) (caught
      (within (app (prim .recursionHeadroom) [num 1]) "h" (app (prim .blownStack) [num 10])))) = some true := by
  refine ⟨?_, ?_, ?_, ?_⟩ <;> decide +kernel

end Knot
