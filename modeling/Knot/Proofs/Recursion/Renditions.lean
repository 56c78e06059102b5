import Knot.Proofs.Recursion.Fixing

/-!
The renditions of the factorial and of the Fibonacci numbers. However a rendition gets at the recursion, it
gives the value of the recursion if the stack has room for it, and it never gives another one; so all
renditions of one function agree on integers, truth values and doubles, and none returns where the recursion
does not end.
-/

namespace Knot

open Run Store Term Prelude

/-! The factorial as a procedure of the calculus. -/

namespace Calculus

variable {s : Store} {g : Value}

/-- The thunks of the factorial's generator, where the generator is as it was made. -/
def generatorThunks (inert : g.Inert) : Thunking g :=
  (thunks g inert).keeping (fun s => IsGenerator s g) fun beneath is => is.later beneath

/-- What the factorial's generator makes of a thunk. -/
def IsSchemulated (inert : g.Inert) (s : Store) (f : Value) : Prop :=
  ∃ mark scope env p, s.Made ["i"] (.closure mark (generatorHeader 2 "π") stepTerm scope) env f ∧
    s.Binds "self" p outermost env ∧ (generatorThunks inert).param s p ∧ s.Fresh

theorem IsSchemulated.later {inert : g.Inert} {t : Store} {f : Value} (beneath : s.Beneath t)
    (is : IsSchemulated inert s f) : IsSchemulated inert t f := by
  obtain ⟨mark, scope, env, p, made, binds, param, new⟩ := is
  exact ⟨mark, scope, env, p, beneath.made made, beneath.binds binds,
    (generatorThunks inert).later beneath param, beneath.new new⟩

theorem generator_attains {inert : g.Inert} {m : Manner} {n : Nat} {p : Value}
    (param : (generatorThunks inert).param s p) (room : m.Room 3 n s) :
    Attains m ((Machine.ofFuel n).call g [p] []) s fun r u => r.isCallable = true ∧ IsSchemulated inert u r := by
  have steady : Steady fun r u => r.isCallable = true ∧ IsSchemulated inert u r :=
    fun f u depth held => ⟨held.1, held.2.later (.atDepth u depth)⟩
  obtain ⟨is, mark, scope, made⟩ := param
  have new : s.Fresh := by
    obtain ⟨_, _, _, _, _, _, _, _, new⟩ := is
    exact new
  refine procedure_call_attains steady made rfl is.inert.evaluated new (fun _ => rfl) room ?_
  intro n' env t less beneath room' bound
  refine procedure_attains _ _ steady (beneath.new new) room' (by decide) (fun _ _ => var_yields rfl) ?_
  rintro f u later ⟨mark', made'⟩
  have since := beneath.trans later
  refine ⟨?_, mark', _, env, p, made', later.binds bound,
    (generatorThunks inert).later since ⟨is, mark, scope, made⟩, since.new new⟩
  obtain ⟨_, _, _, rfl, -⟩ := made'
  rfl

/-- A procedure that computes the factorial goes by its step, two levels of calls deeper. -/
theorem schemulated_attains {inert : g.Inert} {stops : Stop → Prop} {levels n : Nat} {f v : Value} {x : Number}
    {P : Value → Store → Prop} (steady : Steady P) (is : IsSchemulated inert s f) (number : v.number? = some x)
    (room : (Manner.silent stops).Room (levels + 2) n s)
    (run : ∀ n' t scope p, n' < n → s.Beneath t → (generatorThunks inert).param t p →
      (Manner.silent stops).Room levels n' t →
      Reads (.silent stops) (.ofFuel n') scope (attr (var "π") "i") t v →
      (∀ u, Quiet t u → Yields ((attr (var "π") "self").eval (.ofFuel n') scope) u p) →
      Attains (.silent stops) (stepTerm.eval (.ofFuel n') scope) t P) :
    Attains (.silent stops) ((Machine.ofFuel n).call f [v] []) s P := by
  obtain ⟨mark, scope, env, p, made, binds, param, new⟩ := is
  refine procedure_call_attains steady made rfl (Value.selfEvaluating_of_number number) new (fun _ => rfl)
    room ?_
  intro n' env' t less beneath room' bound
  refine run n' t _ p (by omega) beneath ((generatorThunks inert).later beneath param) room' ?_ ?_
  · intro u quiet
    have read : (attr (var "π") "i").eval (.ofFuel n') (("π", env') :: scope) u = marked v u :=
      (attr_eq rfl).trans ((bound.later quiet).attribute_eq ordinary_i)
    obtain ⟨w, z, run, later, same⟩ := marked_number number u
    exact ⟨w, z, read.trans run, later, same⟩
  · intro u quiet
    have found : env.lookup u.frame "self" = .ok p :=
      ((beneath.binds binds).later quiet).lookup ordinary_self.plain
    exact attr_yields rfl ((bound.later quiet).attribute_outer ordinary_self (by decide) param.1.inert found)

/-- The generator of the calculus goes by the factorial. -/
def schemulatedUnfolding (inert : g.Inert) : Unfolding (generatorThunks inert) Recurrence.factorial where
  family := IsSchemulated inert
  later := IsSchemulated.later
  self := attr (var "π") "self"
  number := attr (var "π") "i"
  need := 2
  depth := 2
  covers := by change 2 ≤ 2 + 1 + 4; decide
  makes := generator_attains
  enter := schemulated_attains

end Calculus

/-! Renditions. -/

/-- A rendition of a function of one number, with the levels of calls that it goes through for so many calls
in each other. -/
structure Rendition where
  apply : Machine → Value → Run Value
  levels : Nat → Nat

/-- A rendition gives the values of a recursion, whatever may stop it. -/
def Rendition.Renders (r : Rendition) (R : Recurrence) : Prop :=
  ∀ (stops : Stop → Prop) (n : Nat) (s : Store) (v : Value) (x : Number), s.Equipped → v.number? = some x →
    R.Tends (.silent stops) r.levels n s v →
    Attains (.silent stops) (r.apply (.ofFuel n) v) s fun w _ => R.Answers v w

namespace Rendition

/-- A function that is built in. -/
def named (b : Builtin) (levels : Nat → Nat) : Rendition := ⟨fun k v => k.call (.builtin b) [v] [], levels⟩

/-- The fixed point of a generator. -/
def thunked (b : Builtin) (r : Fixing) : Rendition where
  apply k v := do k.call (← r.build k (.builtin b)) [v] []
  levels d := match r with
    | .native => d + 2
    | .calculus => max 7 (d + 5)

/-- The fixed point of direct-style code. -/
def direct (b : Builtin) (r : DirectFixing) : Rendition where
  apply k v := do k.call (← r.build k (.builtin b)) [v] []
  levels d := match r with
    | .selfApplied => max 4 (2 * d + 2)
    | .adapted => 2 * d + 3
    | .calculus => max 7 (3 * d + 3)

variable {R : Recurrence} {b : Builtin}

theorem named_renders {levels : Nat → Nat} (follows : R.Follows levels fun _ f => f = .builtin b) :
    (named b levels).Renders R :=
  fun stops n s v x _ is tends => follows stops n s _ v x rfl is tends

/-- What is built and then called gives the values if the functions that are built follow the recursion. -/
theorem renders_of_follows {r : Rendition} {build : Machine → Run Value} {levels : Nat → Nat}
    {family : Store → Value → Prop} (applies : ∀ k v, r.apply k v = (build k >>= fun f => k.call f [v] []))
    (follows : R.Follows levels family) (enough : ∀ d, levels d ≤ r.levels d) (grows : ∀ d, r.levels 0 ≤ r.levels d)
    (builds : ∀ {stops : Stop → Prop} {n : Nat} {s : Store}, s.Equipped →
      (Manner.silent stops).Room (r.levels 0) n s →
      Attains (.silent stops) (build (.ofFuel n)) s fun f t => family t f) : r.Renders R := by
  rintro stops n s v x equipped is ⟨d, room, ends⟩
  rw [applies]
  refine (builds equipped (room.less (grows d))).bind fun f t quiet family => ?_
  exact follows stops n t f v x family is ⟨d, (room.later (Quiet.stack quiet)).less (enough d), ends⟩

theorem steady_of_later {family : Store → Value → Prop} (later : ∀ {s t f}, s.Beneath t → family s f → family t f) :
    Steady fun f t => family t f :=
  fun _ t depth is => later (.atDepth t depth) is

/-- The fixed points of the examples' generators. -/
theorem thunked_renders (doc : Option String) (r : Fixing)
    (defined : definition? b = some (["self"], inner b "fn" ["i"] (R.step asked (var "i")) doc)) :
    (thunked b r).Renders R := by
  have fits : r.Fits (.builtin b) := fun _ => Value.inert_builtin b
  have builds {stops : Stop → Prop} {n : Nat} {s : Store} (equipped : s.Equipped)
      (room : (Manner.silent stops).Room (0 + 1 + r.cost) n s) :
      Attains (.silent stops) (r.build (.ofFuel n) (.builtin b)) s fun f t =>
        (R.unfolding doc (r.thunking (.builtin b) fits) defined).family t f :=
    r.build_attains fits (fun _ => equipped) (steady_of_later (Unfolding.later _)) room
      fun _ _ _ _ _ param room' => (R.unfolding doc _ defined).makes param room'
  have follows := (R.unfolding doc (r.thunking (.builtin b) fits) defined).follows
  cases r with
  | native =>
      refine renders_of_follows (fun _ _ => rfl) follows (fun d => ?_) (fun d => ?_) builds
      · change 1 * d + (0 + 1 + 1) ≤ d + 2
        omega
      · change 2 ≤ d + 2
        omega
  | calculus =>
      refine renders_of_follows (fun _ _ => rfl) follows (fun d => ?_) (fun d => ?_) builds
      · change 1 * d + (0 + 1 + 4) ≤ max 7 (d + 5)
        omega
      · change 7 ≤ max 7 (d + 5)
        omega

/-- The fixed points of the examples' code. -/
theorem direct_renders (name : String) (r : DirectFixing)
    (defined : definition? b = some ([name], inner b "fn" ["n"] (R.step (var name) (var "n"))))
    (apart : (name == "n") = false) : (direct b r).Renders R := by
  have fits : r.Fits (.builtin b) := fun _ => Value.inert_builtin b
  have builds {stops : Stop → Prop} {n : Nat} {s : Store} (equipped : s.Equipped)
      (room : (Manner.silent stops).Room (0 + 1 + r.cost) n s) :
      Attains (.silent stops) (r.build (.ofFuel n) (.builtin b)) s fun f t =>
        R.Coded name (r.delaying (.builtin b) fits) t f :=
    r.build_attains fits (fun _ => equipped) (steady_of_later Recurrence.Coded.later) room
      fun _ _ _ _ _ param room' => R.code_attains _ defined param room'
  have turns : (r.delaying (.builtin b) fits).turn ≤ (r.delaying (.builtin b) fits).cost := by
    cases r with
    | selfApplied => exact (by decide : 1 ≤ 2)
    | adapted => exact (by decide : 1 ≤ 3)
    | calculus => exact (by decide : 2 ≤ 4)
  have follows := R.coded_follows (r.delaying (.builtin b) fits) turns defined apart
  cases r with
  | selfApplied =>
      refine renders_of_follows (fun _ _ => rfl) follows (fun d => ?_) (fun d => ?_) builds
      · change (1 + 1) * d + (2 - 1 + 1) ≤ max 4 (2 * d + 2)
        omega
      · change 4 ≤ max 4 (2 * d + 2)
        omega
  | adapted =>
      refine renders_of_follows (fun _ _ => rfl) follows (fun d => ?_) (fun d => ?_) builds
      · change (1 + 1) * d + (3 - 1 + 1) ≤ 2 * d + 3
        omega
      · change 3 ≤ 2 * d + 3
        omega
  | calculus =>
      refine renders_of_follows (fun _ _ => rfl) follows (fun d => ?_) (fun d => ?_) builds
      · change (2 + 1) * d + (4 - 2 + 1) ≤ max 7 (3 * d + 3)
        omega
      · change 7 ≤ max 7 (3 * d + 3)
        omega

/-- The factorial of the calculus makes its generator itself. -/
theorem schemulated_renders : (named .schemulatedFactorial fun d => max 10 (2 * d + 8)).Renders .factorial := by
  rintro stops n s v x equipped is ⟨d, room, ends⟩
  refine call_attains
    (room.less (show max 9 (2 * d + 7) + 1 ≤ max 10 (2 * d + 8) by omega)) (steady_value _)
    fun n' t same beneath room' => ?_
  refine definition_attains rfl rfl ?_
  rw [Calculus.schemulatedFactorial_eq]
  have there := equipped.later beneath
  refine app_attains (F := fun f u => ∃ g, ∃ inert : Value.Inert g, Calculus.IsSchemulated inert u f)
    (A := fun w _ => w = v) ?_ (fun _ _ _ _ => (var_yields rfl).attains) ?_
  · refine pass_attains (F := fun c _ => c = Session.combinator 1 thunkedBody)
      (A := fun g u => Calculus.IsGenerator u g)
      (Calculus.attr_yields rfl (there.thunked.read Calculus.ordinary_fixedPoint)).attains ?_ ?_
    · rintro _ u quiet -
      refine outermost_procedure_attains _ _ (fun g z depth is => is.later (.atDepth z depth))
        (quiet.fresh there.new) ((room'.later quiet.stack).less (by omega)) (by decide) ?_
      rintro g z _ ⟨mark, made⟩
      exact ⟨mark, _, made⟩
    · rintro _ u g w quiet rfl later isGenerator
      have since := quiet.trans later
      have equipped' := there.later since.beneath
      have inert := isGenerator.inert
      refine Calculus.Delay.combinator_attains (δ := .thunked) equipped'.thunked inert equipped'.new ?_
        ((room'.later since.stack).less (show 2 + 7 ≤ max 9 (2 * d + 7) by omega)) ?_
      · rintro f z depth ⟨g, inert, is⟩
        exact ⟨g, inert, (Calculus.schemulatedUnfolding inert).later (.atDepth z depth) is⟩
      · intro n'' z p less beneath' param room''
        refine ((Calculus.schemulatedUnfolding inert).makes ⟨param, isGenerator.later beneath'⟩ room'').mono ?_
        exact fun f y _ held => ⟨g, inert, held.2⟩
  · rintro f u w z keeps ⟨g, inert, family⟩ keeps' rfl
    have since : Quiet t z := Quiet.trans keeps keeps'
    refine (Calculus.schemulatedUnfolding inert).follows stops n' z f w x ?_ is ⟨d, ?_, ends⟩
    · exact (Calculus.schemulatedUnfolding inert).later (Quiet.beneath keeps') family
    · refine (room'.later since.stack).less ?_
      change 2 * d + (2 + 1 + 4) ≤ max 9 (2 * d + 7)
      omega

/-- What a rendition gives for a value, but for the mark that a double has. -/
def Returns (r : Rendition) (n : Nat) (s : Store) (v z : Value) : Prop :=
  ∃ w t, r.apply (.ofFuel n) v s = .ok w t ∧ w.unmarked = z

/-- A rendition gives one value, wherever the stack has room for so many calls in each other, and never
another one. -/
def Computes (r : Rendition) (d : Nat) (v z : Value) : Prop :=
  ∀ n s, s.Equipped → (Roomy (r.levels d) n s → r.Returns n s v z) ∧ ∀ z', r.Returns n s v z' → z' = z

/-- A rendition gives nothing, whatever the stack has room for. -/
def NeverReturns (r : Rendition) (v : Value) : Prop := ∀ n s, s.Equipped → ∀ z, ¬r.Returns n s v z

variable {r : Rendition} {v : Value} {x : Number}

theorem Renders.returns (renders : r.Renders R) (is : v.number? = some x) {n : Nat} {s : Store}
    (equipped : s.Equipped) {z : Value} (returns : r.Returns n s v z) : ∃ d, R.value v d z := by
  obtain ⟨w, t, run, rfl⟩ := returns
  have ends : R.Tends Manner.bounded r.levels n s v := ⟨0, .inl Manner.bounded_open, .inl Manner.bounded_open⟩
  rcases renders _ n s v x equipped is ends with ⟨w', t', run', -, d, z, value, same⟩ | ⟨_, _, run', -⟩
  · rw [run] at run'
    cases run'
    exact ⟨d, same ▸ value⟩
  · rw [run] at run'
    cases run'

theorem Renders.computes (renders : r.Renders R) (is : v.number? = some x)
    (unique : ∀ {d z d' z'}, R.value v d z → R.value v d' z' → d = d' ∧ z = z') {d : Nat} {z : Value}
    (value : R.value v d z) : r.Computes d v z := by
  refine fun n s equipped => ⟨fun roomy => ?_, fun z' returns => ?_⟩
  · have ends : R.Tends Manner.sure r.levels n s v := ⟨d, .inr roomy, .inr ⟨z, value⟩⟩
    obtain ⟨w, t, run, -, d', z', value', same⟩ := (renders _ n s v x equipped is ends).gives
    exact ⟨w, t, run, same.trans (unique value' value).2⟩
  · obtain ⟨d', value'⟩ := renders.returns is equipped returns
    exact (unique value' value).2

theorem Renders.neverReturns (renders : r.Renders R) (is : v.number? = some x) (endless : ∀ d z, ¬R.value v d z) :
    r.NeverReturns v := by
  intro n s equipped z returns
  obtain ⟨d, value⟩ := renders.returns is equipped returns
  exact endless d z value

end Rendition

open Rendition

/-- The factorial by name, as one expression, as a procedure of the calculus, and as every fixed point of the
example generator and of the example code. -/
def factorialRenditions : List Rendition := [
  named .factorial (· + 1), named .untypedFactorial (· + 5),
  named .schemulatedFactorial fun d => max 10 (2 * d + 8),
  thunked .factorialGenerator .native, thunked .factorialGenerator .calculus,
  direct .factorialCode .selfApplied, direct .factorialCode .adapted, direct .factorialCode .calculus]

/-- The Fibonacci numbers by name, and as every fixed point of the example generator and of the example code. -/
def fibonacciRenditions : List Rendition := [
  named .fibonacci (· + 1),
  thunked .fibonacciGenerator .native, thunked .fibonacciGenerator .calculus,
  direct .fibonacciCode .selfApplied, direct .fibonacciCode .adapted, direct .fibonacciCode .calculus]

theorem factorialRenditions_render : ∀ r ∈ factorialRenditions, r.Renders .factorial := by
  simp only [factorialRenditions, List.forall_mem_cons, List.not_mem_nil, false_implies, implies_true, and_true]
  refine ⟨named_renders (Recurrence.factorial.plain_follows rfl), named_renders untypedFactorial_follows,
    schemulated_renders, thunked_renders _ _ rfl, thunked_renders _ _ rfl, ?_, ?_, ?_⟩
  all_goals exact direct_renders "factorial" _ rfl rfl

theorem fibonacciRenditions_render : ∀ r ∈ fibonacciRenditions, r.Renders .fibonacci := by
  simp only [fibonacciRenditions, List.forall_mem_cons, List.not_mem_nil, false_implies, implies_true, and_true]
  refine ⟨named_renders (Recurrence.fibonacci.plain_follows rfl), thunked_renders _ _ rfl, thunked_renders _ _ rfl,
    ?_, ?_, ?_⟩
  all_goals exact direct_renders "fib" _ rfl rfl

/-- Renditions of one function agree on a number, or none of them returns. -/
theorem computes_or_neverReturns {R : Recurrence} {renditions : List Rendition}
    (render : ∀ r ∈ renditions, r.Renders R) {v : Value} {x : Number} (is : v.number? = some x)
    (unique : ∀ {d z d' z'}, R.value v d z → R.value v d' z' → d = d' ∧ z = z') :
    (∃ d z, ∀ r ∈ renditions, r.Computes d v z) ∨ ∀ r ∈ renditions, r.NeverReturns v := by
  by_cases ends : ∃ d z, R.value v d z
  · obtain ⟨d, z, value⟩ := ends
    exact .inl ⟨d, z, fun r mem => (render r mem).computes is unique value⟩
  · exact .inr fun r mem => (render r mem).neverReturns is fun d z value => ends ⟨d, z, value⟩

/-- All renditions compute the factorial and the Fibonacci numbers of every integer. On any other number the
renditions of one function agree, and where a double has no predecessor below one, no factorial returns. -/
theorem renditions_agree :
    (∀ r ∈ factorialRenditions, ∀ i : Int, r.Computes i.toNat (.int i) (.int i.toNat.factorial)) ∧
    (∀ r ∈ fibonacciRenditions, ∀ i : Int,
      r.Computes (i.toNat - 1) (.int i) (.int (if i < 2 then i else Nat.fib i.toNat))) ∧
    (∀ renditions ∈ [factorialRenditions, fibonacciRenditions], ∀ v x, Value.number? v = some x →
      (∃ d z, ∀ r ∈ renditions, r.Computes d v z) ∨ ∀ r ∈ renditions, r.NeverReturns v) ∧
    ∀ r ∈ factorialRenditions, ∀ mark x, x.isNaN = true ∨ x = infinity → r.NeverReturns (.float mark x) := by
  refine ⟨fun r mem i => ?_, fun r mem i => ?_, fun renditions mem v x is => ?_, fun r mem mark x endless => ?_⟩
  · exact (factorialRenditions_render r mem).computes rfl Factorial.unique (Factorial.ofInt i)
  · exact (fibonacciRenditions_render r mem).computes rfl Fibonacci.unique (Fibonacci.ofInt i)
  · rcases List.mem_pair.mp mem with rfl | rfl
    · exact computes_or_neverReturns factorialRenditions_render is Factorial.unique
    · exact computes_or_neverReturns fibonacciRenditions_render is Fibonacci.unique
  · obtain ⟨above, fixed⟩ := Number.fixed_of_nan_or_infinity endless
    exact (factorialRenditions_render r mem).neverReturns rfl fun d z => Factorial.not_of_fixed rfl above fixed

/-- The factorial of five by the calculus in a session that starts, and that of infinity, which has none. -/
theorem renditions_agree_started :
    (thunked .factorialGenerator .calculus).Returns Session.fuel Session.start (.int 5) (.int 120) ∧
    ¬∃ z, (thunked .factorialGenerator .calculus).Returns Session.fuel Session.start (.float 1 infinity) z := by
  have member : thunked .factorialGenerator .calculus ∈ factorialRenditions := by simp [factorialRenditions]
  obtain ⟨integers, -, -, endless⟩ := renditions_agree
  refine ⟨?_, fun ⟨z, returns⟩ => ?_⟩
  · exact (integers _ member 5 Session.fuel Session.start Store.equipped_start).1 ⟨by decide, 10000, rfl, by decide⟩
  · exact endless _ member 1 infinity (.inr rfl) Session.fuel Session.start Store.equipped_start z returns

end Knot
