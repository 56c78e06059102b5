import Knot.Proofs.Demo.CalculusRecursion
import Knot.Proofs.Recursion.Host

/-!
Fixed points in the calculus. The two combinators of the outermost environment differ only in the delay that
the root makes: one without parameters, which is asked for the function, or one of a parameter, which applies
the function to it. Either gives the generator or the code such a delay again, in a new environment.
-/

namespace Knot

open Run Store Term Prelude

/-- A value that evaluation leaves as it is. -/
def Value.SelfEvaluating (v : Value) : Prop := ∀ (k : Machine) (env : Value), Calculus.eval k v env = pure v

theorem Value.selfEvaluating_of_number {v : Value} {x : Number} (is : v.number? = some x) : v.SelfEvaluating := by
  cases v <;> cases is <;> exact fun _ _ => rfl

/-- A number with a mark of its own is the same number. -/
theorem Run.marked_number {v : Value} {x : Number} (is : v.number? = some x) (s : Store) :
    Gives (marked v) s fun w _ => w.unmarked = v.unmarked := by
  cases v with
  | float mark f =>
      cases mark with
      | zero => exact .of_run rfl (Quiet.told s 1 s.journal s.deeds) rfl
      | succ mark => exact .same rfl rfl
  | bool b => exact .same rfl rfl
  | int i => exact .same rfl rfl
  | _ => cases is

section

variable {m : Manner} {levels n mark : Nat} {s : Store} {name p : String} {arg closed proc : Value}
  {header : Header} {term : Term} {scope : Scope} {P : Value → Store → Prop}

/-- A value that stands for itself is evaluated one level deeper. -/
theorem evaluate_self (env : Value) (self : arg.SelfEvaluating) (room : m.Room 1 n s) :
    (∃ t, (Machine.ofFuel n).evaluate arg env s = .ok arg t ∧ Quiet s t) ∨
      ∃ e t, (Machine.ofFuel n).evaluate arg env s = .error e t ∧ m.stops e := by
  have attains : Attains (.silent m.stops) ((Machine.ofFuel n).evaluate arg env) s fun v _ => v = arg := by
    refine evaluate_attains room (steady_value _) fun n' t _ _ _ => ?_
    rw [self]
    exact .pure rfl
  refine attains.imp ?_ id
  rintro ⟨_, t, run, quiet, rfl⟩
  exact ⟨t, run, quiet⟩

/-- Calling a procedure of one parameter runs its body two levels deeper. -/
theorem procedure_call_attains (steady : Steady P)
    (made : s.Made [name] (.closure mark header term scope) closed proc) (plain : isReserved name = false)
    (self : arg.SelfEvaluating) (new : s.Fresh) (binds : ∀ env, header.bind [env] [] = .ok [(p, env)])
    (room : m.Room (levels + 2) n s)
    (run : ∀ n' env t, n' + 2 = n → s.Beneath t → m.Room levels n' t → t.Binds name arg closed env →
      Attains m (term.eval (.ofFuel n') ((p, env) :: scope)) t P) :
    Attains m ((Machine.ofFuel n).call proc [arg] []) s P := by
  refine call_attains room steady fun n' s' same below room' => ?_
  have called : Machine.callValue (.ofFuel n') proc [arg] [] =
      Run.list [arg] >>= fun args => Calculus.apply (.ofFuel n') proc args closed := by
    obtain ⟨_, _, _, rfl, -⟩ := made
    rfl
  rw [called]
  refine (Calculus.list_gives s' [arg]).next ?_
  rintro v t quiet ⟨rfl, -, contents⟩
  have beneath := below.trans quiet.beneath
  have unchanged : t.contents.lookup s'.nextMark = none := by
    rw [contents]
    exact (below.new new).contents _ (Nat.le_refl _)
  have roomy := room'.later quiet.stack
  rcases evaluate_self closed self ((roomy.less (by omega)).later (Quiet.opened t).stack) with
    ⟨u, ran, quiet'⟩ | ⟨e, u, ran, stops⟩
  · obtain ⟨env, w, later, bound, whole⟩ :=
      Calculus.apply_one_eq (beneath.made made) plain rfl (beneath.new new) unchanged ran quiet'
    refine .of_eq whole later (call_attains (roomy.later later.stack) steady fun n'' x same' below' room'' => ?_)
    refine closure_attains (binds env) ?_
    exact run n'' env x (by omega) ((beneath.trans later.beneath).trans below') room'' (below'.binds bound)
  · exact .inr ⟨e, u, Calculus.apply_one_error (beneath.made made) unchanged ran, stops⟩

/-- Calling a procedure without parameters runs its body two levels deeper. -/
theorem thunk_call_attains (steady : Steady P) (made : s.Made [] (.closure mark header term scope) closed proc)
    (new : s.Fresh) (binds : ∀ env, header.bind [env] [] = .ok [(p, env)]) (room : m.Room (levels + 2) n s)
    (run : ∀ n' t, n' + 2 = n → s.Beneath t → m.Room levels n' t →
      Attains m (term.eval (.ofFuel n') ((p, closed) :: scope)) t P) :
    Attains m ((Machine.ofFuel n).call proc [] []) s P := by
  refine call_attains room steady fun n' s' same below room' => ?_
  have called : Machine.callValue (.ofFuel n') proc [] [] =
      Run.list [] >>= fun args => Calculus.apply (.ofFuel n') proc args closed := by
    obtain ⟨_, _, _, rfl, -⟩ := made
    rfl
  rw [called]
  refine (Calculus.list_gives s' []).next ?_
  rintro v t quiet ⟨rfl, -, contents⟩
  have beneath := below.trans quiet.beneath
  have unchanged : t.contents.lookup s'.nextMark = none := by
    rw [contents]
    exact (below.new new).contents _ (Nat.le_refl _)
  rw [Attains, Calculus.apply_none_eq (beneath.made made) rfl unchanged]
  refine call_attains (room'.later quiet.stack) steady fun n'' x same' below' room'' => ?_
  refine closure_attains (binds closed) ?_
  exact run n'' x (by omega) (beneath.trans below') room''

/-- A call that makes a procedure of a body, parameters that were just listed, and an environment. -/
theorem lambda_call_attains {k : Nat} {names : List String} {args : List Value} {body params env : Value}
    (steady : Steady P) (new : s.Fresh) (room : m.Room 1 k s) (listed : s.Listed names params)
    (single : names.length ≤ 1)
    (passed : ∀ k', Machine.callValue k' (.builtin .lambda) args [] = Calculus.lambda body params env)
    (holds : ∀ v t, s.Beneath t → t.Made names body env v → P v t) :
    Attains m ((Machine.ofFuel k).call (.builtin .lambda) args []) s P := by
  obtain ⟨list, rfl, positive, known, unchanged⟩ := listed
  refine call_attains room steady fun k' t _ below _ => ?_
  have unchanged' : t.contents.lookup list = none := by
    have kept : t.contents.lookup list = s.contents.lookup list := below.contents list known
    rw [kept, unchanged]
  rw [passed]
  refine ((Calculus.lambda_gives body env (below.new new) positive (known.trans_le below.marks) unchanged'
    single).mono ?_).attains
  exact fun v u later made => holds v u (below.trans later.beneath) made

/-- A procedure that a term makes of a function, its parameters and an environment. -/
theorem procedure_attains {k : Nat} {params : List String} {env : Term} {closed : Value} (header : Header)
    (body : Term) (steady : Steady P) (new : s.Fresh) (room : m.Room 1 k s) (single : params.length ≤ 1)
    (given : ∀ t, Quiet s t → Yields (env.eval (.ofFuel k) scope) t closed)
    (holds : ∀ v t, s.Beneath t → (∃ mark, t.Made params (.closure mark header body scope) closed v) → P v t) :
    Attains m ((Prelude.procedure (lam header body) params env).eval (.ofFuel k) scope) s P := by
  have args : Gives (evalAll (.ofFuel k) [lam header body, list (params.map fun p => lit (.str p)), env] scope) s
      fun vs t => ∃ mark list, vs = [.closure mark header body scope, list, closed] ∧ t.Listed params list := by
    refine evalAll_gives (lam_gives header body) ?_
    rintro v t quiet ⟨mark, rfl⟩
    refine evalAll_gives (params_gives (quiet.fresh new) params) ?_
    intro v u later listed
    refine evalAll_gives (given u (quiet.trans later)) ?_
    rintro v w last rfl
    exact .same rfl ⟨mark, _, rfl, listed.later last⟩
  rw [Prelude.procedure, app, eval]
  refine args.next (f := fun args => (Machine.ofFuel k).call (.builtin .lambda) args []) ?_
  rintro vs t quiet ⟨mark, list, rfl, listed⟩
  refine lambda_call_attains steady (quiet.fresh new) (room.later quiet.stack) listed single (fun _ => rfl) ?_
  exact fun v u later made => holds v u (quiet.beneath.trans later) ⟨mark, made⟩

/-- A procedure that a term makes in the outermost environment. -/
theorem outermost_procedure_attains {k : Nat} {params : List String} (header : Header) (body : Term)
    (steady : Steady P) (new : s.Fresh) (room : m.Room 1 k s) (single : params.length ≤ 1)
    (holds : ∀ v t, s.Beneath t → (∃ mark, t.Made params (.closure mark header body scope) outermost v) → P v t) :
    Attains m ((app (prim .lambda) [lam header body, list (params.map fun p => lit (.str p))]).eval (.ofFuel k) scope)
      s P := by
  have args : Gives (evalAll (.ofFuel k) [lam header body, list (params.map fun p => lit (.str p))] scope) s
      fun vs t => ∃ mark list, vs = [.closure mark header body scope, list] ∧ t.Listed params list := by
    refine evalAll_gives (lam_gives header body) ?_
    rintro v t quiet ⟨mark, rfl⟩
    refine evalAll_gives (params_gives (quiet.fresh new) params) ?_
    intro v u later listed
    exact .same rfl ⟨mark, _, rfl, listed⟩
  rw [app, eval]
  refine args.next (f := fun args => (Machine.ofFuel k).call (.builtin .lambda) args []) ?_
  rintro vs t quiet ⟨mark, list, rfl, listed⟩
  refine lambda_call_attains steady (quiet.fresh new) (room.later quiet.stack) listed single (fun _ => rfl) ?_
  exact fun v u later made => holds v u (quiet.beneath.trans later) ⟨mark, made⟩

end

/-! Delays of the combinators. -/

namespace Calculus

/-- The delay that a root makes in its environment: a procedure of some parameters. -/
structure Delay where
  params : List String
  env : String
  body : Term
  single : params.length ≤ 1

namespace Delay

/-- The delay is asked for the function. -/
def thunked : Delay := ⟨[], "πt", twice "πt" "sf", by decide⟩

/-- The delay applies the function to its parameter. -/
def direct : Delay := ⟨["m"], "π", app (twice "π" "sf") [attr (var "π") "m"], by decide⟩

def term (δ : Delay) : Term := Prelude.procedure (lam (bodyHeader 2 δ.env) δ.body) δ.params (var "πsf")

theorem thunkedBody_eq : thunkedBody = fixedPointBody thunked.term := rfl

theorem directBody_eq : directBody = fixedPointBody direct.term := rfl

theorem fixedPointBody_eq (delayed : Term) : fixedPointBody delayed =
    app (Prelude.procedure (lam (bodyHeader 1 "πg") (twice "πg" "g")) ["g"] (var "πd"))
      [Prelude.procedure (lam (bodyHeader 1 "πsf") (app (attr (var "πd") "d") [delayed])) ["sf"] (var "πd")] := rfl

variable (δ : Delay) (g : Value)

/-- What the combinator applies to itself, for a generator or code. -/
def IsRoot (s : Store) (v : Value) : Prop :=
  ∃ mark env, s.Made ["sf"] (.closure mark (bodyHeader 1 "πsf") (app (attr (var "πd") "d") [δ.term]) [("πd", env)])
    env v ∧ s.Binds "d" g outermost env

/-- A delay over a root. -/
def IsDelay (s : Store) (p : Value) : Prop :=
  ∃ mark scope env root outer, s.Made δ.params (.closure mark (bodyHeader 2 δ.env) δ.body scope) env p ∧
    s.Binds "sf" root outer env ∧ δ.IsRoot g s root ∧ s.Fresh

variable {δ g} {m : Manner} {levels n : Nat} {s t : Store} {v root root' : Value} {P : Value → Store → Prop}

theorem IsRoot.later (beneath : Beneath s t) (is : δ.IsRoot g s v) : δ.IsRoot g t v := by
  obtain ⟨mark, env, made, binds⟩ := is
  exact ⟨mark, env, beneath.made made, beneath.binds binds⟩

theorem IsDelay.later (beneath : Beneath s t) (is : δ.IsDelay g s v) : δ.IsDelay g t v := by
  obtain ⟨mark, scope, env, root, outer, made, binds, inner, new⟩ := is
  exact ⟨mark, scope, env, root, outer, beneath.made made, beneath.binds binds, inner.later beneath,
    beneath.new new⟩

theorem IsRoot.inert (is : δ.IsRoot g s v) : v.Inert := by
  obtain ⟨_, _, made, -⟩ := is
  exact made.inert

theorem IsDelay.inert (is : δ.IsDelay g s v) : v.Inert := by
  obtain ⟨_, _, _, _, _, made, -⟩ := is
  exact made.inert

/-- A root applied to a root gives the generator or the code a new delay. -/
theorem root_attains (inert : g.Inert) (called : δ.IsRoot g s root) (passed : δ.IsRoot g s root') (new : s.Fresh)
    (steady : Steady P) (room : m.Room (levels + 3) n s)
    (start : ∀ n' t p, n' < n → s.Beneath t → δ.IsDelay g t p → m.Room (levels + 1) n' t →
      Attains m ((Machine.ofFuel n').call g [p] []) t P) :
    Attains m ((Machine.ofFuel n).call root [root'] []) s P := by
  obtain ⟨mark, outer, made, binds⟩ := called
  refine procedure_call_attains steady made rfl passed.inert.evaluated new (fun _ => rfl)
    room ?_
  intro n' env t less beneath room' bound
  have new' := beneath.new new
  refine pass_attains (F := fun v _ => v = g) (A := fun p w => δ.IsDelay g w p)
    (attr_yields rfl ((beneath.binds binds).attribute ordinary_d inert)).attains ?_ ?_
  · rintro _ u quiet -
    refine procedure_attains (bodyHeader 2 δ.env) δ.body (fun p w depth is => is.later (.atDepth w depth))
      (quiet.fresh new') ((room'.later quiet.stack).less (by omega)) δ.single (fun _ _ => var_yields rfl) ?_
    rintro p w later ⟨mark', made'⟩
    have since := quiet.beneath.trans later
    exact ⟨mark', _, env, root', outer, made', since.binds bound, (passed.later beneath).later since, since.new new'⟩
  · rintro _ u p w quiet rfl later is
    have since := quiet.trans later
    exact start n' w p (by omega) (beneath.trans since.beneath) is (room'.later since.stack)

/-- A value that an environment binds, applied to itself. -/
theorem twice_attains {scope : Scope} {env name : String}
    (read : ∀ t, Quiet s t → Yields ((attr (var env) name).eval (.ofFuel n) scope) t root) (inert : g.Inert)
    (is : δ.IsRoot g s root) (new : s.Fresh) (steady : Steady P) (room : m.Room (levels + 3) n s)
    (start : ∀ n' t p, n' < n → s.Beneath t → δ.IsDelay g t p → m.Room (levels + 1) n' t →
      Attains m ((Machine.ofFuel n').call g [p] []) t P) :
    Attains m ((twice env name).eval (.ofFuel n) scope) s P := by
  refine pass_attains (read s (.refl s)).attains (fun _ t quiet _ => (read t quiet).attains) ?_
  rintro _ t _ u quiet rfl later rfl
  have since := quiet.trans later
  have there := is.later since.beneath
  refine root_attains inert there there (since.fresh new) steady (room.later since.stack) ?_
  exact fun n' w p less beneath => start n' w p less (since.beneath.trans beneath)

/-- The combinator gives the generator or the code its first delay. -/
theorem combinator_attains {mark : Nat} {name : String} (provides : s.Provides name mark (fixedPointBody δ.term))
    (inert : g.Inert) (new : s.Fresh) (steady : Steady P) (room : m.Room (levels + 7) n s)
    (start : ∀ n' t p, n' < n → s.Beneath t → δ.IsDelay g t p → m.Room (levels + 1) n' t →
      Attains m ((Machine.ofFuel n').call g [p] []) t P) :
    Attains m ((Machine.ofFuel n).call (Session.combinator mark (fixedPointBody δ.term)) [g] []) s P := by
  refine procedure_call_attains steady provides.made rfl inert.evaluated new (fun _ => rfl)
    room ?_
  intro n' env t less beneath room' bound
  have new' := beneath.new new
  rw [fixedPointBody_eq]
  refine pass_attains (F := fun f u => ∃ mark, u.Made ["g"] (.closure mark (bodyHeader 1 "πg") (twice "πg" "g")
    [("πd", env)]) env f) (A := fun v u => δ.IsRoot g u v) ?_ ?_ ?_
  · refine procedure_attains _ _ ?_ new' (room'.less (by omega)) (by decide) (fun _ _ => var_yields rfl) ?_
    · rintro f u depth ⟨mark, made⟩
      exact ⟨mark, (Beneath.atDepth u depth).made made⟩
    · exact fun _ _ _ made => made
  · rintro _ u quiet -
    refine procedure_attains _ _ (fun v w depth is => is.later (.atDepth w depth)) (quiet.fresh new')
      ((room'.later quiet.stack).less (by omega)) (by decide) (fun _ _ => var_yields rfl) ?_
    rintro v w later ⟨mark, made⟩
    exact ⟨mark, env, made, (quiet.beneath.trans later).binds bound⟩
  · rintro f u root w quiet ⟨mark, made⟩ later is
    have since := quiet.trans later
    refine procedure_call_attains steady (made.later later) rfl is.inert.evaluated
      (since.fresh new') (fun _ => rfl) (room'.later since.stack) ?_
    intro n'' env' x less' beneath' room'' bound'
    refine twice_attains (fun y quiet' => attr_yields rfl ((bound'.later quiet').attribute ordinary_g is.inert))
      inert (is.later beneath') (beneath'.new (since.fresh new')) steady room'' ?_
    intro n₃ y p less'' beneath''
    exact start n₃ y p (by omega) ((beneath.trans since.beneath).trans (beneath'.trans beneath''))

end Delay

/-- A thunk of the calculus gives its generator another one. -/
def thunks (g : Value) (inert : g.Inert) : Thunking g where
  param s p := Delay.thunked.IsDelay g s p
  later beneath is := is.later beneath
  cost := 4
  ask := by
    rintro m levels n s p P steady ⟨mark, scope, env, root, outer, made, binds, is, new⟩ room start
    refine thunk_call_attains steady made new (fun _ => rfl) room ?_
    intro n' t less beneath room'
    refine Delay.twice_attains (fun u quiet => ?_) inert (is.later beneath) (beneath.new new)
      steady room' ?_
    · exact attr_yields rfl (((beneath.binds binds).later quiet).attribute ordinary_sf is.inert)
    · intro n'' u p less' beneath' is' room''
      refine (start n'' u p (by omega) (beneath.trans beneath') is' room'').mono ?_
      exact fun _ _ _ held => held.2

/-- A delay of the calculus gives its code another one, and what comes back the argument. -/
theorem delay_applies (d : Value) (inert : d.Inert) : Applies d (Delay.direct.IsDelay d) 4 2 := by
  rintro stops levels levels' n s p v x P G steady stable
    ⟨mark, scope, env, root, outer, made, binds, is, new⟩ number room start go
  have enough := room.less (show max (levels + 3) levels' + 2 ≤ _ by omega)
  refine procedure_call_attains steady made rfl (Value.selfEvaluating_of_number number) new (fun _ => rfl)
    enough ?_
  intro n' env' t less beneath room' bound
  refine app_attains (F := G) (A := fun w _ => w.unmarked = v.unmarked) ?_ ?_ ?_
  · refine Delay.twice_attains (fun u quiet => ?_) inert (is.later beneath) (beneath.new new)
      (fun f z depth held => stable f _ _ (.atDepth z depth) held) (room'.less (le_max_left _ _)) ?_
    · have found : env.lookup u.frame "sf" = .ok root :=
        ((beneath.binds binds).later quiet).lookup ordinary_sf.plain
      exact attr_yields rfl ((bound.later quiet).attribute_outer ordinary_sf (by decide) is.inert found)
    · intro n'' u p less' beneath' is' room''
      refine (start n'' u p (by omega) (beneath.trans beneath') is' room'').mono ?_
      exact fun _ _ _ held => held.2
  · intro f u keeps _
    have read : (attr (var "π") "m").eval (.ofFuel n') [("π", env')] u = marked v u :=
      (attr_eq rfl).trans ((bound.later keeps).attribute_eq ordinary_m)
    exact .of_eq read (.refl u) (marked_number number u).attains
  · intro f u w z keeps held keeps' same
    have since : Quiet t z := keeps.trans keeps'
    exact go n' z f w (by omega) (beneath.trans since.beneath) (stable f u z keeps'.beneath held) same
      ((room'.later since.stack).less (le_max_right _ _))

/-- The delays of the calculus. -/
def delays (d : Value) (inert : d.Inert) : Delaying d where
  param s p := Delay.direct.IsDelay d s p
  later beneath is := is.later beneath
  cost := 4
  turn := 2
  apply := delay_applies d inert

end Calculus

end Knot
