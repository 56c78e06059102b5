import Knot.Proofs.Demo.Exhaustion

/-!
Functions without a base case. A generator makes a function that asks for itself and calls what it gets,
whatever it is called with: no call of it ever ends with a value. Under every ceiling the stack is full in
the end, and the tally shows at least one derivation and at most as many as there were levels of calls.
-/

namespace Knot

open Run Store FixedPoint

/-- A tally that was made before shows in the second store what it shows in the first one. -/
def SameCount (mark : Nat) (s t : Store) : Prop := ∀ d c, Tallied mark s d c → Tallied mark t d c

/-- Nothing but counting on the tally and going in and out of calls is between two stores. -/
structure Idle (mark : Nat) (s t : Store) : Prop where
  rest : { t with nextMark := s.nextMark, tallies := s.tallies, stack := s.stack, deeds := s.deeds } = s
  marks : s.nextMark ≤ t.nextMark
  others : ∀ other, other ≠ mark → t.tallies.lookup other = s.tallies.lookup other
  ceiling : { t.stack with depth := s.stack.depth } = s.stack

namespace Idle

variable (mark : Nat) (s : Store)

theorem atDepth (depth : Nat) : Idle mark s (Run.atDepth depth s) := ⟨rfl, Nat.le_refl _, fun _ _ => rfl, rfl⟩

theorem did (deed : Deed) : Idle mark s (s.did deed) := ⟨rfl, Nat.le_refl _, fun _ _ => rfl, rfl⟩

theorem skip (n : Nat) : Idle mark s (s.skip n) := ⟨rfl, Nat.le_add_right _ _, fun _ _ => rfl, rfl⟩

theorem recounted (d c : Int) : Idle mark s (Run.recounted s mark d c) :=
  ⟨rfl, Nat.le_succ _, fun _ apart => Bindings.lookup_assign_of_ne _ _ apart, rfl⟩

end Idle

/-- Where a generator and its functions work: the stores that they cope with, and the arguments that the
functions take there. Counting changes nothing about it. -/
structure Ground (mark : Nat) where
  ready : Store → Prop
  takes : Store → Value → Prop
  steady : ∀ {s t}, Idle mark s t → ready s → ready t

section

variable {mark : Nat}

/-- The stack is full, and the tally shows what it showed before. -/
def IsFull (mark : Nat) (s : Store) (r : EStateM.Result Stop Store Value) : Prop :=
  ∃ t, r = .error (.fault .stackExhausted) t ∧ SameCount mark s t

/-- Where the stack is full in a call, the run around it ends with that, and nothing is counted in between. -/
def FillsWith (mark : Nat) (call r : EStateM.Result Stop Store Value) : Prop :=
  ∀ t, call = .error (.fault .stackExhausted) t → IsFull mark t r

/-- What a function does with what it got for itself: it calls that with one argument, which it works out
without asking again. -/
def CallsAgain (G : Ground mark) (w : Value) (levels : Nat) (s : Store) (r : EStateM.Result Stop Store Value) : Prop :=
  IsFull mark s r ∨ ∃ below k u y, below < levels ∧ Bounded below k u ∧ SameCount mark s u ∧ G.takes u y ∧
    FillsWith mark (k.call w [y] [] u) r

/-- What a function does before it could return: it asks for itself and applies what it gets. Its own
computing may fill the stack before. -/
def Asks (G : Ground mark) (self : Value) (levels : Nat) (s : Store) (r : EStateM.Result Stop Store Value) : Prop :=
  IsFull mark s r ∨ ∃ below k u, below < levels ∧ Bounded below k u ∧ SameCount mark s u ∧ G.ready u ∧
    FillsWith mark (k.call self [] [] u) r ∧
      ∀ w v, k.call self [] [] u = .ok w v → v.stack = u.stack → G.ready v → CallsAgain G w levels v r

/-- A function without a base case. -/
def Baseless (G : Ground mark) (self f : Value) : Prop :=
  ∀ levels k s x, Bounded levels k s → G.takes s x → Asks G self levels s (k.call f [x] [] s)

/-- The generator that counts on the tally. -/
def countedOn (mark made : Nat) (name : String) (g : Value) : Value := .counted made name g (Forever.tally mark)

/-- What the generator is called with: a thunk that counts on the tally. -/
def IsSelf (mark : Nat) (g self : Value) : Prop :=
  ∃ c thunk made name, self = .countedThunk c (.thunk thunk (countedOn mark made name g)) (Forever.tally mark)

/-- A generator that makes functions without a base case, and does not call its parameter. -/
def Endless (G : Ground mark) (g : Value) : Prop :=
  ∀ levels k s self, IsSelf mark g self → Bounded levels k s → G.ready s →
    IsFull mark s (k.call g [self] [] s) ∨ ∃ f t, k.call g [self] [] s = .ok f t ∧ SameCount mark s t ∧
      t.stack = s.stack ∧ G.ready t ∧ f.isCallable = true ∧ Baseless G self f

/-- How deriving a function ends, with so many levels of calls left: with a function without a base case, and one
derivation more, or the stack is full. -/
inductive Derived (G : Ground mark) (g : Value) (d : Int) (stack : Stack) (levels : Nat) :
    EStateM.Result Stop Store Value → Prop
  | made {w self : Value} {t : Store} {c : Int} : 0 < levels → IsSelf mark g self → Baseless G self w →
      w.isCallable = true → G.ready t → Tallied mark t (d + 1) c → t.stack = stack →
      Derived G g d stack levels (.ok w t)
  | full {t : Store} {d' c : Int} : Tallied mark t d' c → d ≤ d' → d' ≤ d + levels →
      Derived G g d stack levels (.error (.fault .stackExhausted) t)

variable {G : Ground mark} {g self f : Value} {d c : Int} {levels : Nat} {k : Machine} {s : Store}
  {args : List Value}

theorem Tallied.idle_atDepth (tallied : Tallied mark s d c) (depth : Nat) : Tallied mark (Run.atDepth depth s) d c :=
  ⟨tallied.made, tallied.counts⟩

/-- What there is room for, or the stack is full. -/
theorem bounded_or_full {n room : Nat} (given : s.stack.room = some room) (fuel : room < n) :
    (∃ levels, min room s.stack.limit = s.stack.depth + levels ∧ Bounded levels (.ofFuel n) s) ∨
      s.stack.full = true := by
  rcases Nat.lt_or_ge (min room s.stack.limit) s.stack.depth with past | within
  · right
    rw [Stack.full, given]
    exact decide_eq_true (by omega)
  · obtain ⟨levels, same⟩ := Nat.exists_eq_add_of_le within
    exact .inl ⟨levels, same, ⟨n, by omega, rfl⟩, room, given, same⟩

theorem over_of_full {stack : Stack} {room : Nat} (given : stack.room = some room) (full : stack.full = true) :
    min room stack.limit ≤ stack.depth := by
  rw [Stack.full, given] at full
  exact of_decide_eq_true full

/-- A call is refused where the stack is full. -/
theorem call_full {n room : Nat} (given : s.stack.room = some room) (fuel : room < n) (full : s.stack.full = true) :
    (Machine.ofFuel n).call f args [] s = .error (.fault .stackExhausted) (s.did .refused) := by
  obtain ⟨n, rfl⟩ : ∃ m, n = m + 1 := ⟨n - 1, by omega⟩
  change deeper _ s = _
  rw [deeper, given, full]
  rfl

theorem derive_full {n room : Nat} (given : s.stack.room = some room) (fuel : room < n)
    (full : s.stack.full = true) :
    derive (.ofFuel n) g s = .error (.fault .stackExhausted) ((s.skip 1).did .refused) := by
  have marked : fresh s = .ok s.nextMark (s.skip 1) := rfl
  unfold derive
  rw [bind_of_ok marked]
  exact bind_of_error (call_full (s := s.skip 1) given fuel full)

theorem call_none (bounded : Bounded 0 k s) :
    k.call f args [] s = .error (.fault .stackExhausted) (s.did .refused) := by
  obtain ⟨⟨n, fuel, rfl⟩, room, given, same⟩ := bounded
  obtain ⟨n, rfl⟩ : ∃ m, n = m + 1 := ⟨n - 1, by omega⟩
  have full : s.stack.full = true := by
    rw [Stack.full, given]
    exact decide_eq_true (by omega)
  change deeper _ s = _
  rw [deeper, given, full]
  rfl

/-- One level is used up by a call. -/
theorem call_some (f : Value) (args : List Value) (bounded : Bounded (levels + 1) k s) :
    ∃ k', Bounded levels k' s.inside ∧ s.stack.room.isNone = false ∧ s.stack.full = false ∧
      k.call f args [] s = deeper (Machine.callValue k' f args []) s := by
  obtain ⟨⟨n, fuel, rfl⟩, room, given, same⟩ := bounded
  obtain ⟨n, rfl⟩ : ∃ m, n = m + 1 := ⟨n - 1, by omega⟩
  refine ⟨.ofFuel n, ⟨⟨n, by omega, rfl⟩, room, given, ?_⟩, ?_, ?_, rfl⟩
  · change min room s.stack.limit = s.stack.depth + 1 + levels
    omega
  · rw [given]
    rfl
  · rw [Stack.full, given]
    exact decide_eq_false (by omega)

/-! Deriving a function. -/

theorem Derived.less {below : Nat} {stack : Stack} {r : EStateM.Result Stop Store Value} (less : below ≤ levels)
    (derived : Derived G g d stack below r) : Derived G g d stack levels r := by
  cases derived with
  | made some is baseless callable ready tallied stack =>
      exact .made (some.trans_le less) is baseless callable ready tallied stack
  | full tallied least most => exact .full tallied least (by omega)

theorem call_derived (bounded : Bounded levels k s) (tallied : Tallied mark s d c)
    (inner : ∀ below k', levels = below + 1 → Bounded below k' s.inside → Tallied mark s.inside d c →
      Derived G g d s.inside.stack levels (Machine.callValue k' f args [] s.inside)) :
    Derived G g d s.stack levels (k.call f args [] s) := by
  cases levels with
  | zero =>
      rw [call_none bounded]
      have kept : Tallied mark (s.did .refused) d c := ⟨tallied.made, tallied.counts⟩
      exact .full kept (Int.le_refl _) (by omega)
  | succ levels =>
      obtain ⟨k', below, counted, full, run⟩ := call_some f args bounded
      have outcome := inner levels k' rfl below (tallied.idle_atDepth _)
      rw [run]
      cases called : Machine.callValue k' f args [] s.inside with
      | ok w t =>
          rw [deeper_of_ok counted full called]
          rw [called] at outcome
          cases outcome with
          | made some is baseless callable ready tallied stack =>
              refine .made some is baseless callable (G.steady (.atDepth mark t _) ready) (tallied.idle_atDepth _) ?_
              exact congrArg (fun stack : Stack => { stack with depth := s.stack.depth }) stack
      | error e t =>
          rw [deeper_of_error counted full called]
          rw [called] at outcome
          cases outcome with
          | full tallied least most => exact .full (tallied.idle_atDepth _) least most

variable (endless : Endless G g)
include endless

/-- The generator counts one derivation and makes its function. -/
theorem Endless.counted (bounded : Bounded levels k s) (ready : G.ready s) (tallied : Tallied mark s d c)
    (made : Nat) (name : String) (thunk : Nat) :
    Derived G g d s.stack levels
      (k.app (countedOn mark made name g) [.thunk thunk (countedOn mark made name g)] s) := by
  refine call_derived bounded tallied fun below k' same bounded' tallied' => ?_
  let generator := countedOn mark made name g
  let s₁ := (recounted s.inside mark (d + 1) c).did (.derived (Forever.tally mark))
  let self := Value.countedThunk s₁.nextMark (.thunk thunk generator) (Forever.tally mark)
  have run : Machine.callValue k' generator [.thunk thunk generator] [] s.inside = k'.call g [self] [] (s₁.skip 1) :=
    bind_of_ok (bump_derivations _ _ tallied')
  have ready' : G.ready (s₁.skip 1) :=
    G.steady (.skip mark _ 1) (G.steady (.did mark _ _) (G.steady (.recounted mark _ _ _)
      (G.steady (.atDepth mark s _) ready)))
  have tallied'' : Tallied mark (s₁.skip 1) (d + 1) c :=
    have recorded := recounted_tallied tallied'.made (d + 1) c (.derived (Forever.tally mark))
    ⟨recorded.made.trans (Nat.lt_succ_self _), recorded.counts⟩
  have is : IsSelf mark g self := ⟨_, thunk, made, name, rfl⟩
  rw [run]
  rcases endless below k' (s₁.skip 1) self is (bounded'.later rfl) ready' with
    ⟨t, full, kept⟩ | ⟨f, t, returned, kept, stack, ready, callable, baseless⟩
  · rw [full]
    exact .full (kept _ _ tallied'') (by omega) (by omega)
  · rw [returned]
    exact .made (by omega) is baseless callable ready (kept _ _ tallied'') stack

/-- Deriving gives what the generator made. -/
theorem Endless.derive (bounded : Bounded levels k s) (ready : G.ready s) (tallied : Tallied mark s d c)
    (made : Nat) (name : String) :
    Derived G g d s.stack levels (FixedPoint.derive k (countedOn mark made name g) s) := by
  have tallied' : Tallied mark (s.skip 1) d c := ⟨tallied.made.trans (Nat.lt_succ_self _), tallied.counts⟩
  have outcome : Derived G g d s.stack levels _ :=
    endless.counted (s := s.skip 1) (bounded.later rfl) (G.steady (.skip mark s 1) ready) tallied' made name s.nextMark
  have marked : fresh s = .ok s.nextMark (s.skip 1) := rfl
  unfold FixedPoint.derive
  rw [bind_of_ok marked]
  cases called : k.app (countedOn mark made name g) [.thunk s.nextMark (countedOn mark made name g)] (s.skip 1) with
  | ok w t =>
      rw [called] at outcome
      rw [bind_of_ok called]
      cases outcome with
      | made some is baseless callable ready tallied stack =>
          rw [if_pos callable]
          exact .made some is baseless callable ready tallied stack
  | error e t =>
      rw [called] at outcome
      rw [bind_of_error called]
      exact outcome

/-- So does asking a thunk, -/
theorem Endless.thunk (bounded : Bounded levels k s) (ready : G.ready s) (tallied : Tallied mark s d c)
    (thunk made : Nat) (name : String) :
    Derived G g d s.stack levels (k.call (.thunk thunk (countedOn mark made name g)) [] [] s) := by
  refine call_derived bounded tallied fun below k' same bounded' tallied' => ?_
  let s₁ := s.inside.did (.asked (countedOn mark made name g))
  have ready' : G.ready s₁ := G.steady (.did mark _ _) (G.steady (.atDepth mark s _) ready)
  have derived := endless.derive (s := s₁) (bounded'.later rfl) ready' ⟨tallied'.made, tallied'.counts⟩ made name
  have run : Machine.callValue k' (.thunk thunk (countedOn mark made name g)) [] [] s.inside =
      FixedPoint.derive k' (countedOn mark made name g) s₁ := rfl
  rw [run]
  exact .less (by omega) derived

/-- and so does asking a thunk that counts. -/
theorem Endless.asked (bounded : Bounded levels k s) (ready : G.ready s) (tallied : Tallied mark s d c)
    (is : IsSelf mark g self) : Derived G g d s.stack levels (k.call self [] [] s) := by
  obtain ⟨mark', thunk, made, name, rfl⟩ := is
  refine call_derived bounded tallied fun below k' same bounded' tallied' => ?_
  let inner := Value.thunk thunk (countedOn mark made name g)
  let s₁ := (recounted s.inside mark d (c + 1)).did (.passed (Forever.tally mark) inner true)
  have ready' : G.ready s₁ :=
    G.steady (.did mark _ _) (G.steady (.recounted mark _ _ _) (G.steady (.atDepth mark s _) ready))
  have derived := endless.thunk (s := s₁) (bounded'.later rfl) ready' (recounted_tallied tallied'.made d (c + 1) _)
    thunk made name
  have run : Machine.callValue k' (.countedThunk mark' inner (Forever.tally mark)) [] [] s.inside =
      k'.call inner [] [] s₁ := bind_of_ok (bump_thunkCalls _ _ tallied')
  rw [run]
  exact .less (by omega) derived

/-- No call of a function without a base case ends with a value: the stack is full in the end, and the tally
shows fewer derivations more than there were levels of calls. -/
theorem Endless.exhausts (bounded : Bounded levels k s) {x : Value} (takes : G.takes s x)
    (tallied : Tallied mark s d c) (is : IsSelf mark g self) (baseless : Baseless G self f) :
    ∃ t d' c', k.call f [x] [] s = .error (.fault .stackExhausted) t ∧ Tallied mark t d' c' ∧
      d ≤ d' ∧ d' ≤ d + (levels - 1 : Nat) := by
  -- What was asked for is called with fewer levels.
  induction levels using Nat.strong_induction_on generalizing k s x d c self f with
  | _ levels ih =>
      rcases baseless levels k s x bounded takes with
        ⟨t, full, kept⟩ | ⟨below, k', u, less, bounded', kept, ready, passes, returns⟩
      · exact ⟨t, d, c, full, kept _ _ tallied, Int.le_refl _, by omega⟩
      · have derived := endless.asked bounded' ready (kept _ _ tallied) is
        cases asked : k'.call self [] [] u with
        | error e v =>
            rw [asked] at derived
            cases derived with
            | @full _ d' c' tallied' least most =>
                obtain ⟨t, full, kept'⟩ := passes v asked
                exact ⟨t, d', c', full, kept' _ _ tallied', least, by omega⟩
        | ok w v =>
            rw [asked] at derived
            cases derived with
            | @made _ _ _ c' some is' baseless' _ ready' tallied' stack =>
                rcases returns w v asked stack ready' with
                  ⟨t, full, kept'⟩ | ⟨below', k'', u', y, less', bounded'', kept', takes', passes'⟩
                · exact ⟨t, d + 1, c', full, kept' _ _ tallied', by omega, by omega⟩
                · obtain ⟨t, d', c'', called, tallied'', least, most⟩ :=
                    ih below' less' bounded'' takes' (kept' _ _ tallied') is' baseless'
                  obtain ⟨t', full, kept''⟩ := passes' t called
                  exact ⟨t', d', c'', full, kept'' _ _ tallied'', by omega, by omega⟩

end

end Knot
