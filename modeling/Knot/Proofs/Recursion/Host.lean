import Knot.Proofs.Recursion.Unfolding

/-!
Fixed points in the host language. The thunked one gives the generator a thunk of itself; self-application
gives direct-style code a function that applies it to itself once more; the adapter makes a generator of code
by giving the code a function that asks the generator's thunk.
-/

namespace Knot

open Run Store Term Prelude

section

variable {m : Manner} {levels n : Nat} {s : Store} {g d : Value} {P : Value → Store → Prop}

/-! Thunks. -/

theorem derive_attains {k : Machine} (start : ∀ t mark, Quiet s t →
      Attains m (k.call g [.thunk mark g] []) t fun r u => r.isCallable = true ∧ P r u) :
    Attains m (FixedPoint.derive k g) s P := by
  rw [FixedPoint.derive]
  refine (fresh_gives s).next fun mark t quiet _ => (start t mark quiet).bind ?_
  rintro r u - ⟨callable, holds⟩
  rw [if_pos callable]
  exact .pure holds

/-- A derivation comes after something is told. -/
theorem told_derive_attains {k : Machine} {deed : Deed} (start : ∀ t mark, Quiet s t →
      Attains m (k.call g [.thunk mark g] []) t fun r u => r.isCallable = true ∧ P r u) :
    Attains m (tell deed >>= fun _ => FixedPoint.derive k g) s P :=
  (tell_gives deed s).next fun _ _ quiet _ => derive_attains fun u mark quiet' =>
    start u mark (quiet.trans quiet')

/-- To call a thunk of the host language is to give its generator another one. -/
theorem thunk_attains {mark : Nat} (steady : Steady P) (room : m.Room (levels + 1) n s)
    (start : ∀ n' t mark, n' < n → s.Beneath t → m.Room levels n' t →
      Attains m ((Machine.ofFuel n').call g [.thunk mark g] []) t fun r u => r.isCallable = true ∧ P r u) :
    Attains m ((Machine.ofFuel n).call (.thunk mark g) [] []) s P := by
  refine call_attains room steady fun n' t same beneath room' => ?_
  change Attains m (tell _ >>= fun _ => FixedPoint.derive (.ofFuel n') g) t P
  refine told_derive_attains fun u mark quiet => ?_
  exact start n' u mark (by omega) (beneath.trans quiet.beneath) (room'.later quiet.stack)

/-- The thunks of the host language. -/
def thunks (g : Value) : Thunking g where
  param _ p := ∃ mark, p = .thunk mark g
  later _ is := is
  cost := 1
  ask := by
    rintro m levels n s _ P steady ⟨mark, rfl⟩ room start
    exact thunk_attains steady room fun n' t mark less beneath room' =>
      start n' t _ less beneath ⟨mark, rfl⟩ room'

theorem fixedPoint_attains (steady : Steady P) (room : m.Room (levels + 1) n s)
    (start : ∀ n' t p, n' < n → s.Beneath t → (thunks g).param t p → m.Room levels n' t →
      Attains m ((Machine.ofFuel n').call g [p] []) t fun r u => r.isCallable = true ∧ P r u) :
    Attains m ((Machine.ofFuel n).call (.builtin .fixedPoint) [g] []) s P := by
  refine call_attains room steady fun n' t same beneath room' => ?_
  change Attains m (tell _ >>= fun _ => FixedPoint.derive (.ofFuel n') g) t P
  refine told_derive_attains fun u mark quiet => ?_
  exact start n' u _ (by omega) (beneath.trans quiet.beneath) ⟨mark, rfl⟩ (room'.later quiet.stack)

/-! Self-application. -/

/-- The code in what is applied to itself. -/
def rootScope (d : Value) : Scope := [("d", d), ("ΓΠ", outermost)]

/-- What is applied to itself. -/
def selfRoot (d : Value) (mark : Nat) : Value :=
  .closure mark lsfHeader (app (var "d") [lam delayedHeader delayedBody]) (rootScope d)

/-- What applies a root to itself when it is applied. -/
def selfDelay (d : Value) (mark root : Nat) : Value :=
  .closure mark delayedHeader delayedBody (("sf", selfRoot d root) :: rootScope d)

theorem selfRoot_attains (root root' : Nat) (steady : Steady P) (room : m.Room (levels + 1) n s)
    (start : ∀ n' t p, n' < n → s.Beneath t → (∃ mark root, p = selfDelay d mark root) → m.Room levels n' t →
      Attains m ((Machine.ofFuel n').call d [p] []) t P) :
    Attains m ((Machine.ofFuel n).call (selfRoot d root) [selfRoot d root'] []) s P := by
  refine call_attains room steady fun n' t same beneath room' => ?_
  refine closure_attains rfl (pass_attains (var_yields rfl).attains (fun _ _ _ _ => (lam_gives _ _).attains) ?_)
  rintro g u p w quiet rfl quiet' ⟨mark, rfl⟩
  have since := quiet.trans quiet'
  exact start n' w _ (by omega) (beneath.trans since.beneath) ⟨mark, root', rfl⟩ (room'.later since.stack)

/-- A delay gives its code another one, and what comes back the argument. -/
theorem selfDelay_applies (d : Value) : Applies d (fun _ p => ∃ mark root, p = selfDelay d mark root) 2 1 := by
  rintro stops levels levels' n s _ v x P G steady stable ⟨mark, root, rfl⟩ _ room start go
  have enough := room.less (show max (levels + 2) levels' + 1 ≤ _ by omega)
  refine call_attains enough steady fun n' t same beneath room' => ?_
  refine closure_attains rfl (app_attains (F := G) (A := fun w _ => w = v) ?_
    (fun _ _ _ _ => (var_yields rfl).attains) ?_)
  · refine pass_attains (var_yields rfl).attains (fun _ _ _ _ => (var_yields rfl).attains) ?_
    rintro g u r w quiet rfl quiet' rfl
    have since := quiet.trans quiet'
    refine selfRoot_attains root root (fun f z depth held => stable f _ _ (.atDepth z depth) held)
      ((room'.later since.stack).less (le_max_left _ _)) ?_
    intro n'' z p less beneath' param room''
    refine (start n'' z p (by omega) ((beneath.trans since.beneath).trans beneath') param room'').mono ?_
    exact fun _ _ _ held => held.2
  · rintro f u w z keeps held keeps' rfl
    have since : Quiet t z := keeps.trans keeps'
    exact go n' z f w (by omega) (beneath.trans since.beneath) (stable f u z keeps'.beneath held) rfl
      ((room'.later since.stack).less (le_max_right _ _))

/-- The delays of self-application. -/
def selfDelays (d : Value) : Delaying d where
  param _ p := ∃ mark root, p = selfDelay d mark root
  later _ is := is
  cost := 2
  turn := 1
  apply := selfDelay_applies d

theorem selfFixedPoint_attains (steady : Steady P) (room : m.Room (levels + 3) n s)
    (start : ∀ n' t p, n' < n → s.Beneath t → (selfDelays d).param t p → m.Room levels n' t →
      Attains m ((Machine.ofFuel n').call d [p] []) t P) :
    Attains m ((Machine.ofFuel n).call (.builtin .selfFixedPoint) [d] []) s P := by
  refine call_attains room steady fun n' t same beneath room' => ?_
  refine definition_attains rfl rfl (pass_attains (prim_yields _).attains (fun _ _ _ _ => (lam_gives _ _).attains) ?_)
  rintro g u r w quiet rfl quiet' ⟨root, rfl⟩
  have since := quiet.trans quiet'
  refine call_attains (room'.later since.stack) steady fun n'' t' same' beneath' room'' => ?_
  refine definition_attains rfl rfl (pass_attains (var_yields rfl).attains (fun _ _ _ _ => (var_yields rfl).attains) ?_)
  rintro g u' r w' first rfl second rfl
  have since' := first.trans second
  refine selfRoot_attains root root steady (room''.later since'.stack) ?_
  intro n₃ z p less beneath'' param room₃
  refine start n₃ z p (by omega) ?_ param room₃
  exact (beneath.trans since.beneath).trans ((beneath'.trans since'.beneath).trans beneath'')

/-! Adapted code. -/

/-- What a generator of code shows of itself. -/
def adapterHeader (name : String) : Header where
  name := name
  path := "as_generator.<locals>.generator"
  params := ["self"]
  plain := false
  home := "fixpoint"

/-- Code as a generator. -/
def adapted (d : Value) (mark : Nat) (name : String) : Value :=
  .closure mark (adapterHeader name) FixedPoint.adaptedBody [("d", d)]

/-- What adapted code is given: a function that asks the thunk and applies what comes back. -/
def adaptedDelayHeader : Header where
  name := "<lambda>"
  path := "as_generator.<locals>.generator.<locals>.<lambda>"
  params := ["n"]
  plain := false
  home := "fixpoint"

def adaptedDelay (d : Value) (mark thunk generator : Nat) (name : String) : Value :=
  .closure mark adaptedDelayHeader (app asked [var "n"])
    [("self", .thunk thunk (adapted d generator name)), ("d", d)]

/-- What adapted code is given for its function. -/
def IsAdaptedDelay (d p : Value) : Prop := ∃ mark thunk generator name, p = adaptedDelay d mark thunk generator name

/-- A generator of code gives the code a delay over its thunk. -/
theorem adapted_attains {generator thunk : Nat} {name : String} (steady : Steady P)
    (room : m.Room (levels + 1) n s)
    (start : ∀ n' t p, n' < n → s.Beneath t → IsAdaptedDelay d p → m.Room levels n' t →
      Attains m ((Machine.ofFuel n').call d [p] []) t P) :
    Attains m ((Machine.ofFuel n).call (adapted d generator name) [.thunk thunk (adapted d generator name)] [])
      s P := by
  refine call_attains room steady fun n' t same beneath room' => ?_
  refine closure_attains rfl (pass_attains (var_yields rfl).attains (fun _ _ _ _ => (lam_gives _ _).attains) ?_)
  rintro g u p w quiet rfl quiet' ⟨mark, rfl⟩
  have since := quiet.trans quiet'
  exact start n' w _ (by omega) (beneath.trans since.beneath) ⟨mark, thunk, generator, name, rfl⟩
    (room'.later since.stack)

/-- A delay over a thunk asks it, and what comes back gets the argument. -/
theorem adaptedDelay_applies (d : Value) : Applies d (fun _ => IsAdaptedDelay d) 3 1 := by
  rintro stops levels levels' n s _ v x P G steady stable ⟨mark, thunk, generator, name, rfl⟩ _ room start go
  have enough := room.less (show max (levels + 3) levels' + 1 ≤ _ by omega)
  refine call_attains enough steady fun n' t same beneath room' => ?_
  refine closure_attains rfl (app_attains (F := G) (A := fun w _ => w = v) ?_
    (fun _ _ _ _ => (var_yields rfl).attains) ?_)
  · refine ask_attains (var_yields rfl).attains ?_
    rintro g u quiet rfl
    refine (thunks (adapted d generator name)).ask
      (fun f z depth held => stable f _ _ (.atDepth z depth) held) ⟨thunk, rfl⟩
      ((room'.later quiet.stack).less (le_max_left _ _)) ?_
    rintro n'' z _ less beneath' ⟨thunk', rfl⟩ room''
    refine adapted_attains (fun f y depth held => ⟨held.1, stable f _ _ (.atDepth y depth) held.2⟩) room'' ?_
    intro n₃ y p less' beneath'' param room₃
    exact start n₃ y p (by omega) ((beneath.trans quiet.beneath).trans (beneath'.trans beneath'')) param room₃
  · rintro f u w z keeps held keeps' rfl
    have since : Quiet t z := keeps.trans keeps'
    exact go n' z f w (by omega) (beneath.trans since.beneath) (stable f u z keeps'.beneath held) rfl
      ((room'.later since.stack).less (le_max_right _ _))

/-- The delays over thunks. -/
def adaptedDelays (d : Value) : Delaying d where
  param _ p := IsAdaptedDelay d p
  later _ is := is
  cost := 3
  turn := 1
  apply := adaptedDelay_applies d

/-- Code becomes a generator, named for the code. -/
theorem adapter_attains (room : m.Room 1 n s) :
    Attains m ((Machine.ofFuel n).call (.builtin .asGenerator) [d] []) s
      fun v _ => ∃ mark name, v = adapted d mark name := by
  refine call_attains room (steady_value _) fun n' t _ _ _ => Gives.attains ?_
  change Gives (FixedPoint.adapter d) t _
  exact .of_run rfl (Quiet.told t 1 t.journal t.deeds) ⟨_, _, rfl⟩

end

/-! Plain recursion. -/

/-- A function that names itself follows the recursion. -/
theorem Recurrence.plain_follows (R : Recurrence) {b : Builtin}
    (defined : definition? b = some (["n"], R.step (prim b) (var "n"))) :
    R.Follows (· + 1) fun _ f => f = .builtin b := by
  intro stops n
  induction n using Nat.strong_induction_on with
  | _ n ih =>
      rintro s _ v x rfl is ⟨d, room, ends⟩
      refine call_attains room (steady_value _) fun n' t same beneath room' => ?_
      refine definition_attains defined rfl (R.goes (Reads.var rfl) is ends ?_)
      intro i y d' before lower ends' u quiet
      refine recur_attains (F := fun g _ => g = .builtin b) (Reads.var rfl) is before (prim_yields b).attains ?_
      intro g w a z later called quiet' same'
      refine (ih n' (by omega)).number called same' ?_ ends'
      exact lower.elim .inl fun lower =>
        (room'.later (quiet.trans (later.trans quiet')).stack).less (by omega)

/-! The thunked fixed point as one expression. -/

section

variable {m : Manner} {levels n : Nat} {s : Store} {v : Value} {P : Value → Store → Prop}

/-- What the expression's generator is given. -/
def IsExpressionThunk (v : Value) (generator : Nat) (p : Value) : Prop :=
  ∃ mark root, p = thunkValue v mark root generator

theorem rootValue_attains (root root' generator : Nat) (steady : Steady P) (room : m.Room (levels + 1) n s)
    (start : ∀ n' t p, n' < n → s.Beneath t → IsExpressionThunk v generator p → m.Room levels n' t →
      Attains m ((Machine.ofFuel n').call (generatorValue v generator) [p] []) t P) :
    Attains m ((Machine.ofFuel n).call (rootValue v root generator) [rootValue v root' generator] []) s P := by
  refine call_attains room steady fun n' t same beneath room' => ?_
  refine closure_attains rfl (pass_attains (var_yields rfl).attains (fun _ _ _ _ => (lam_gives _ _).attains) ?_)
  rintro g u p w quiet rfl quiet' ⟨mark, rfl⟩
  have since := quiet.trans quiet'
  exact start n' w _ (by omega) (beneath.trans since.beneath) ⟨mark, root', rfl⟩ (room'.later since.stack)

/-- A thunk of the expression applies the root to itself. -/
def expressionThunks (v : Value) (generator : Nat) : Thunking (generatorValue v generator) where
  param _ p := IsExpressionThunk v generator p
  later _ is := is
  cost := 2
  ask := by
    rintro m levels n s _ P steady ⟨mark, root, rfl⟩ room start
    refine call_attains room steady fun n' t same beneath room' => ?_
    refine closure_attains rfl (pass_attains (var_yields rfl).attains (fun _ _ _ _ => (var_yields rfl).attains) ?_)
    rintro g u r w quiet rfl quiet' rfl
    have since := quiet.trans quiet'
    refine rootValue_attains root root generator steady (room'.later since.stack) ?_
    intro n'' z p less beneath' is room''
    refine (start n'' z p (by omega) ((beneath.trans since.beneath).trans beneath') is room'').mono ?_
    exact fun _ _ _ held => held.2

/-- What the expression's generator makes of a thunk. -/
def IsExpressionFactorial (v : Value) (generator : Nat) (f : Value) : Prop :=
  ∃ mark p, IsExpressionThunk v generator p ∧ f = .closure mark (expressionHeader 2 ["i"])
    (factorialStep asked (var "i")) (("self", p) :: expressionScope v)

/-- The expression's generator goes by the factorial. -/
def expressionUnfolding (v : Value) (generator : Nat) :
    Unfolding (expressionThunks v generator) Recurrence.factorial where
  family _ f := IsExpressionFactorial v generator f
  later _ is := is
  self := var "self"
  number := var "i"
  need := 0
  depth := 1
  covers := Nat.le_add_right 1 _
  makes := by
    intro m n s p param room
    refine call_attains room (steady_value fun f : Value => f.isCallable = true ∧ IsExpressionFactorial v generator f)
      fun n' t _ _ _ => ?_
    refine closure_attains rfl ((lam_gives _ _).mono ?_).attains
    rintro f u - ⟨mark, rfl⟩
    exact ⟨rfl, mark, p, param, rfl⟩
  enter := by
    rintro stops levels n s f w x P steady ⟨mark, p, param, rfl⟩ is room run
    exact Recurrence.factorial.step_attains steady rfl rfl room fun n' t scope less beneath =>
      run n' t scope p less beneath param

theorem untypedFactorial_follows :
    Recurrence.factorial.Follows (· + 5) fun _ f => f = .builtin .untypedFactorial := by
  rintro stops n s _ v x rfl is ⟨d, room, ends⟩
  refine call_attains room (steady_value _) fun n' t same beneath room' => ?_
  refine definition_attains rfl rfl (app_attains (F := fun f _ => ∃ generator, IsExpressionFactorial v generator f)
    (A := fun w _ => w = v) ?_ (fun _ _ _ _ => (var_yields rfl).attains) ?_)
  · refine pass_attains (lam_gives _ _).attains (fun _ _ _ _ => (lam_gives _ _).attains) ?_
    rintro g u w z quiet ⟨mark, rfl⟩ quiet' ⟨generator, rfl⟩
    have since := quiet.trans quiet'
    refine call_attains (room'.later since.stack) (steady_value _) fun n'' t' same' beneath' room'' => ?_
    refine closure_attains rfl (pass_attains (lam_gives _ _).attains (fun _ _ _ _ => (lam_gives _ _).attains) ?_)
    rintro g u' w z' quiet₂ ⟨mark', rfl⟩ quiet₃ ⟨root, rfl⟩
    have since' := quiet₂.trans quiet₃
    refine call_attains (room''.later since'.stack) (steady_value _) fun n₃ t₃ same₃ _ room₃ => ?_
    refine closure_attains rfl (pass_attains (var_yields rfl).attains (fun _ _ _ _ => (var_yields rfl).attains) ?_)
    rintro g u₃ w z₃ quiet₄ rfl quiet₅ rfl
    have since₃ := quiet₄.trans quiet₅
    refine rootValue_attains root root generator (steady_value _) (room₃.later since₃.stack) ?_
    intro n₄ y p _ _ is room₄
    refine ((expressionUnfolding v generator).makes is (room₄.less (by change 1 ≤ d + 1; omega))).mono ?_
    exact fun f y' _ held => ⟨generator, held.2⟩
  · rintro f u w z keeps ⟨generator, family⟩ keeps' rfl
    refine (expressionUnfolding w generator).follows stops n' z f w x family is ⟨d, ?_, ends⟩
    refine (room'.later (Quiet.trans keeps keeps').stack).less ?_
    change 1 * d + (0 + 1 + 2) ≤ d + 4
    omega

end

end Knot
