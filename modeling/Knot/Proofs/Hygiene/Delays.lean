import Knot.Proofs.Hygiene.Tandem

/-!
The combinators in two states. Their procedures bind `d`, `g`, `sf` and `m` in environments that they open
themselves, and look them up from there: so what the outermost environment binds these names to makes no
difference to them. Asking a delay gives the generator or the code another delay in both states, and what they
come to is what the generator or the code comes to.
-/

namespace Knot

open Run Store Term Prelude Calculus

variable {N : String → Prop}

section

variable {s t : Store} {k : Machine} {scope : Scope} {n : Nat} {P : Value → Store → Prop}

/-! Terms. -/

/-- A call without arguments. -/
theorem ask_tandem {f : Term} {F : Value → Store → Prop}
    (callee : Tandem N F (f.eval k scope s) (f.eval k scope t))
    (call : ∀ g u u', Differ N u u' → F g u → Tandem N P (k.call g [] [] u) (k.call g [] [] u')) :
    Tandem N P ((app f []).eval k scope s) ((app f []).eval k scope t) := by
  rw [app, Term.eval]
  exact callee.bind fun g u u' _ _ differ holds => call g u u' differ holds

/-- A call with one argument. -/
theorem app_tandem {f a : Term} {F : Value → Store → Prop} {A : Value → Value → Store → Prop}
    (callee : Tandem N F (f.eval k scope s) (f.eval k scope t))
    (arg : ∀ g u u', Differ N u u' → F g u → Tandem N (A g) (a.eval k scope u) (a.eval k scope u'))
    (call : ∀ g v u u', Differ N u u' → A g v u → Tandem N P (k.call g [v] [] u) (k.call g [v] [] u')) :
    Tandem N P ((app f [a]).eval k scope s) ((app f [a]).eval k scope t) := by
  rw [app, Term.eval]
  refine callee.bind fun g u u' _ _ differ holds => ?_
  have args : Tandem N (fun vs w => ∃ v, vs = [v] ∧ A g v w) (evalAll k [a] scope u) (evalAll k [a] scope u') := by
    rw [evalAll_one]
    exact (arg g u u' differ holds).bind fun v w w' _ _ differ held => .ok differ ⟨v, rfl, held⟩
  refine args.bind fun vs w w' _ _ differ held => ?_
  obtain ⟨v, rfl, held⟩ := held
  exact call g v w w' differ held

/-- What an environment has under a name, in both states. -/
theorem attr_tandem {name part : String} {env v : Value} (bound : scope.lookup name = some env) (differ : Differ N s t)
    (found : getAttribute env part s = .ok v s) (found' : getAttribute env part t = .ok v t) (holds : P v s) :
    Tandem N P ((attr (var name) part).eval k scope s) ((attr (var name) part).eval k scope t) := by
  rw [attr_eq bound, attr_eq bound, found, found']
  exact .ok differ holds

/-! Procedures. -/

/-- An argument that goes alike in both states, whatever environment it comes from, and leaves no trace. -/
structure Carries (N : String → Prop) (A : Value → Prop) (arg : Value) : Prop where
  evaluates : ∀ n env s t, Differ N s t →
    Tandem N (fun v _ => A v) ((Machine.ofFuel n).evaluate arg env s) ((Machine.ofFuel n).evaluate arg env t)
  quiet : ∀ n env s v t, (Machine.ofFuel n).evaluate arg env s = .ok v t → Quiet s t

/-- A value that stands for itself does. -/
theorem Value.SelfEvaluating.carries {v : Value} (self : v.SelfEvaluating) : Carries N (· = v) v where
  evaluates n env s t differ := by
    refine .evaluate differ (fun _ _ _ same => same) fun n' u u' _ _ differ' => ?_
    rw [self]
    exact .ok differ' rfl
  quiet n env s w t run := by
    rcases evaluate_self (n := n) env self (.inl Manner.bounded_open : Manner.bounded.Room 1 n s) with
      ⟨u, run', quiet⟩ | ⟨e, u, run', -⟩
    · cases run.symm.trans run'
      exact quiet
    · cases run.symm.trans run'

/-- No dictionary stands for the names of a frame. -/
def Store.Unshared (s : Store) (id : Nat) : Prop := s.namespaces.lookup (s.frame id).mark = none

/-- Binding a name in an environment that is not the outermost one. -/
theorem bind_tandem {id : Nat} (differ : Differ N s t) (apart : id ≠ 0) {name : String}
    (plain : isReserved name = false) (v : Value) (alone : s.Unshared id) :
    Tandem N (fun _ u => writing .call (Run.bind id name v) s = .ok () u) (writing .call (Run.bind id name v) s)
      (writing .call (Run.bind id name v) t) := by
  have writer : t.writer = s.writer := by rw [differ.rest]
  let frame : Frame := { s.frame id with bindings := (s.frame id).bindings.assign name v }
  have changed := (differ.written .call).change apart frame (.bound .call id name v) alone
  rw [bind_eq id plain v s, bind_eq id plain v t, differ.inner id apart, writer]
  exact .ok (changed.written s.writer) rfl

/-- What an argument's binding leaves. -/
theorem bound_eq {id : Nat} {name : String} {v : Value} {u : Store}
    (bound : writing .call (Run.bind id name v) s = .ok () u) (plain : isReserved name = false)
    (alone : s.Unshared id) :
    u = { s with
      frames := s.frames.setIfInBounds id { s.frame id with bindings := (s.frame id).bindings.assign name v }
      journal := .bound .call id name v :: s.journal } := by
  let frame : Frame := { s.frame id with bindings := (s.frame id).bindings.assign name v }
  have alone' : ({ s with writer := .call } : Store).namespaces.lookup frame.mark = none := alone
  have changed := Store.change_alone id alone' (.bound .call id name v)
  have known := bind_eq id plain v s
  rw [changed] at known
  cases bound.symm.trans known
  rfl

/-- What a dictionary holds does not change with the binding of a name. -/
theorem bound_table {id dict : Nat} {name : String} {v : Value} {u : Store}
    (bound : writing .call (Run.bind id name v) s = .ok () u) (plain : isReserved name = false) (alone : s.Unshared id)
    (table : s.table? dict = none) : u.table? dict = none := by
  obtain rfl := bound_eq bound plain alone
  unfold Store.table? at table ⊢
  cases known : s.namespaces.lookup dict with
  | some _ =>
      rw [known] at table
      cases table
  | none =>
      rw [known] at table
      exact table

/-- No dictionary stands for the names of an environment that was just opened. -/
theorem opened_unshared {u w : Store} (new : u.Fresh) (quiet : Quiet u.opened w) : w.Unshared u.frames.size := by
  have here : w.frame u.frames.size = u.opened.frame u.frames.size := quiet.frames _ (by simp [opened, push])
  rw [Store.Unshared, here, u.opened_frame, quiet.namespaces]
  exact new.namespaces _ (Nat.le_refl _)

section

variable {mark : Nat} {name p : String} {arg closed proc : Value} {header : Header} {term : Term}

/-- A function that is written in the host language runs its body. -/
theorem closure_tandem {env : Value} (differ : Differ N s t) (steady : Steady P)
    (binds : header.bind [env] [] = .ok [(p, env)])
    (run : ∀ n' u u', n' < n → s.Beneath u → Differ N u u' →
      Tandem N P (term.eval (.ofFuel n') ((p, env) :: scope) u) (term.eval (.ofFuel n') ((p, env) :: scope) u')) :
    Tandem N P ((Machine.ofFuel n).app (.closure mark header term scope) [env] s)
      ((Machine.ofFuel n).app (.closure mark header term scope) [env] t) := by
  refine .call differ steady fun n' u u' same beneath differ => ?_
  have called (k : Machine) : Machine.callValue k (.closure mark header term scope) [env] [] =
      term.eval k ((p, env) :: scope) := by
    rw [Machine.callValue, Machine.callClosure, binds]
    rfl
  rw [called]
  exact run n' u u' (by omega) beneath differ

/-- A procedure of one parameter evaluates the argument where its caller is, binds it in a new environment, and
runs its body there. -/
theorem procedure_apply_tandem {body : Value} {A : Store → Value → Store → Prop} (differ : Differ N s t)
    (made : s.Made [name] body closed proc) (still : marked body = pure body) (plain : isReserved name = false)
    (new : s.Fresh)
    (evaluates : ∀ u u', s.Beneath u → Differ N u u' →
      Tandem N (A u) (k.evaluate arg closed u.opened) (k.evaluate arg closed u'.opened))
    (stays : ∀ u v w, s.Beneath u → A u v w → w.Made [name] body closed proc ∧ w.Unshared u.frames.size)
    (run : ∀ u v w y y', s.Beneath u → A u v w → writing .call (Run.bind u.frames.size name v) w = .ok () y →
      Differ N y y' → Tandem N P (k.app body [.environment u.frames.size closed] y)
        (k.app body [.environment u.frames.size closed] y')) :
    Tandem N P (Machine.callValue k proc [arg] [] s) (Machine.callValue k proc [arg] [] t) := by
  have made₀ := made
  obtain ⟨mark', dict, params, rfl, positive, known, known', nothing, table⟩ := made
  -- both make a list of the argument
  let u := s.skip 1
  let u' := t.skip 1
  let proc := Value.procedure mark' (.dict dict (code body params [name])) closed
  have called : Machine.callValue k proc [arg] [] =
      Run.list [arg] >>= fun args => Calculus.apply k proc args closed := rfl
  have listed : Run.list [arg] s = .ok (.list s.nextMark [arg]) u := rfl
  have listed' : Run.list [arg] t = .ok (.list s.nextMark [arg]) u' := by
    rw [← differ.nextMark]
    rfl
  have differ₁ : Differ N u u' := differ.skip 1
  have quiet₁ : Quiet s u := Quiet.told s 1 s.journal s.deeds
  have nothing' : u'.contents.lookup params = none := by rw [differ₁.contents]; exact nothing
  have unchanged : u.contents.lookup s.nextMark = none := new.contents _ (Nat.le_refl _)
  have unchanged' : u'.contents.lookup s.nextMark = none := by rw [differ₁.contents, unchanged]
  have table₁ : u.table? dict = none := table
  -- both bind it in an environment that they open
  let id := u.frames.size
  let env := Value.environment id closed
  have apart : id ≠ 0 := Nat.pos_iff_ne_zero.mp (quiet₁.fresh new).opened
  let rest : Run Value := Run.item (.dict dict (code body params [name])) (.str "body") >>= fun body =>
    k.app body [env]
  have applied {v : Store} (size : v.frames.size = id) (nothing : v.contents.lookup params = none)
      (table : v.table? dict = none) (unchanged : v.contents.lookup s.nextMark = none) :
      Calculus.apply k proc (.list s.nextMark [arg]) closed v =
        (Calculus.bindAll k env closed [.str name] [arg] >>= fun _ => rest) v.opened := by
    simp only [rest, env, ← size]
    exact Calculus.apply_one_code _ _ _ positive nothing table unchanged
  rw [called]
  refine .step listed listed' ?_
  rw [applied rfl nothing table₁ unchanged, applied differ₁.size nothing' (differ₁.table?_none table₁) unchanged',
    Calculus.bindAll_one]
  refine Tandem.bind (P := fun _ y => ∃ v w, A u v w ∧ writing .call (Run.bind id name v) w = .ok () y ∧
    y.table? dict = none) ?_ ?_
  · refine (evaluates u u' quiet₁.beneath differ₁).bind fun v w w' _ _ differ₂ held => ?_
    obtain ⟨made', alone⟩ := stays u v w quiet₁.beneath held
    obtain ⟨_, _, _, same, -, -, -, -, table₂⟩ := made'
    cases same
    refine (bind_tandem differ₂ apart plain v alone).bind fun _ y y' bound _ differ₃ _ => .ok differ₃ ?_
    exact ⟨v, w, held, bound, bound_table bound plain alone table₂⟩
  · rintro _ y y' - - differ₃ ⟨v, w, held, bound, table₂⟩
    refine .step (Calculus.item_body table₂ still) (Calculus.item_body (differ₃.table?_none table₂) still) ?_
    exact run u v w y y' quiet₁.beneath held bound differ₃

/-- Calling a procedure of one parameter runs its body in a new environment. -/
theorem procedure_call_tandem {A : Value → Prop} (differ : Differ N s t) (steady : Steady P)
    (made : s.Made [name] (.closure mark header term scope) closed proc) (plain : isReserved name = false)
    (carries : Carries N A arg) (new : s.Fresh) (binds : ∀ env, header.bind [env] [] = .ok [(p, env)])
    (run : ∀ n' v env u u', n' < n → s.Beneath u → Differ N u u' → A v → u.Binds name v closed env → env.Inside →
      Tandem N P (term.eval (.ofFuel n') ((p, env) :: scope) u) (term.eval (.ofFuel n') ((p, env) :: scope) u')) :
    Tandem N P ((Machine.ofFuel n).call proc [arg] [] s) ((Machine.ofFuel n).call proc [arg] [] t) := by
  refine .call differ steady fun n' s' t' same beneath differ => ?_
  have new' := beneath.new new
  refine procedure_apply_tandem (A := fun u v w => A v ∧ Quiet u.opened w) differ (beneath.made made) rfl plain new'
    ?_ ?_ ?_
  · intro u u' _ differ'
    refine (carries.evaluates n' closed _ _ differ'.opened).ran.mono fun v w held => ?_
    exact ⟨held.1, carries.quiet n' closed _ _ _ held.2⟩
  · rintro u v w later ⟨-, quiet⟩
    exact ⟨(beneath.trans (later.trans ((Quiet.opened u).trans quiet).beneath)).made made,
      opened_unshared (later.new new') quiet⟩
  · rintro u v w y y' later ⟨held, quiet⟩ bound differ'
    obtain ⟨_, bound', quiet', binds'⟩ := bind_opened (v := v) quiet (later.new new') plain
    cases bound.symm.trans bound'
    refine closure_tandem differ' steady (binds _) fun n'' z z' less beneath' differ'' => ?_
    refine run n'' v _ z z' (by omega) ?_ differ'' held (beneath'.binds (binds' closed))
      ⟨_, closed, rfl, Nat.pos_iff_ne_zero.mp (later.new new').opened⟩
    exact beneath.trans (later.trans (quiet'.beneath.trans beneath'))

/-- Calling a procedure without parameters runs its body in the environment that it closes over. -/
theorem thunk_call_tandem (differ : Differ N s t) (steady : Steady P)
    (made : s.Made [] (.closure mark header term scope) closed proc) (new : s.Fresh)
    (binds : ∀ env, header.bind [env] [] = .ok [(p, env)])
    (run : ∀ n' u u', n' < n → s.Beneath u → Differ N u u' →
      Tandem N P (term.eval (.ofFuel n') ((p, closed) :: scope) u) (term.eval (.ofFuel n') ((p, closed) :: scope) u')) :
    Tandem N P ((Machine.ofFuel n).call proc [] [] s) ((Machine.ofFuel n).call proc [] [] t) := by
  refine .call differ steady fun n' s' t' same beneath differ => ?_
  have made' := beneath.made made
  have called : Machine.callValue (.ofFuel n') proc [] [] =
      Run.list [] >>= fun args => Calculus.apply (.ofFuel n') proc args closed := by
    obtain ⟨_, _, _, rfl, -⟩ := made
    rfl
  have listed : Run.list [] s' = .ok (.list s'.nextMark []) (s'.skip 1) := rfl
  have listed' : Run.list [] t' = .ok (.list s'.nextMark []) (t'.skip 1) := by
    rw [← differ.nextMark]
    rfl
  have quiet₁ : Quiet s' (s'.skip 1) := Quiet.told s' 1 s'.journal s'.deeds
  have differ₁ : Differ N (s'.skip 1) (t'.skip 1) := differ.skip 1
  have unchanged : (s'.skip 1).contents.lookup s'.nextMark = none := (beneath.new new).contents _ (Nat.le_refl _)
  have unchanged' : (t'.skip 1).contents.lookup s'.nextMark = none := by rw [differ₁.contents, unchanged]
  have made₁ := made'.later quiet₁
  rw [called]
  refine .step listed listed' ?_
  rw [Calculus.apply_none_eq made₁ rfl unchanged, Calculus.apply_none_eq (differ₁.made made₁) rfl unchanged']
  refine closure_tandem differ₁ steady (binds closed) fun n'' y y' less beneath' differ₂ => ?_
  exact run n'' y y' (by omega) (beneath.trans (quiet₁.beneath.trans beneath')) differ₂

/-- Making a procedure. -/
theorem lambda_tandem {names : List String} {body params env : Value} (differ : Differ N s t) (new : s.Fresh)
    (listed : s.Listed names params) (single : names.length ≤ 1) :
    Tandem N (fun v u => s.Beneath u ∧ u.Made names body env v) (Calculus.lambda body params env s)
      (Calculus.lambda body params env t) := by
  obtain ⟨list, rfl, positive, known, unchanged⟩ := listed
  obtain ⟨v, u, run, quiet, made⟩ := lambda_gives body env new positive known unchanged single
  have unchanged' : t.contents.lookup list = none := by rw [differ.contents, unchanged]
  match names, single with
  | [], _ =>
      have here := lambda_nil_eq body env new unchanged
      rw [List.map_nil] at run ⊢
      rw [here, lambda_nil_eq body env (differ.fresh new) unchanged', differ.nextMark]
      cases run.symm.trans here
      exact .ok (differ.skip 3) ⟨quiet.beneath, made⟩
  | [name], _ =>
      have here := lambda_one_eq body env new positive unchanged name
      rw [List.map_cons, List.map_nil] at run ⊢
      rw [here, lambda_one_eq body env (differ.fresh new) positive unchanged' name, differ.nextMark]
      cases run.symm.trans here
      exact .ok (differ.skip 2) ⟨quiet.beneath, made⟩

/-- A procedure that a term makes of a function, its parameters and an environment. -/
theorem procedure_tandem {params : List String} {env : String} {closed : Value} (header : Header) (body : Term)
    (differ : Differ N s t) (new : s.Fresh) (single : params.length ≤ 1) (bound : scope.lookup env = some closed) :
    Tandem N (fun v u => s.Beneath u ∧ ∃ mark, u.Made params (.closure mark header body scope) closed v)
      ((Prelude.procedure (lam header body) params (var env)).eval (.ofFuel n) scope s)
      ((Prelude.procedure (lam header body) params (var env)).eval (.ofFuel n) scope t) := by
  have args (w : Store) := evalAll_procedure (k := .ofFuel n) header body params bound w
  have new' : (s.skip 2).Fresh := (Quiet.told s 2 s.journal s.deeds).fresh new
  have listed : (s.skip 2).Listed params (.list (s.nextMark + 1) (params.map .str)) :=
    ⟨_, rfl, Nat.succ_pos _, Nat.lt_succ_self _, new.contents _ (Nat.le_succ _)⟩
  rw [Prelude.procedure, app, Term.eval]
  refine .step rfl rfl (.step (args s) (differ.nextMark ▸ args t) (.step rfl rfl ?_))
  refine Tandem.call (differ.skip 2) ?_ fun n' u u' _ beneath differ' => ?_
  · rintro v u depth ⟨beneath, mark, made⟩
    have later := Beneath.atDepth u depth
    exact ⟨beneath.trans later, mark, later.made made⟩
  · have since : s.Beneath u := (Quiet.told s 2 s.journal s.deeds).beneath.trans beneath
    have listed' : u.Listed params _ := Listed.later (s := Run.atDepth 0 (s.skip 2)) (t := Run.atDepth 0 u) listed beneath
    refine (lambda_tandem differ' (beneath.new new') listed' single).mono ?_
    rintro v w ⟨later, made⟩
    exact ⟨since.trans later, _, made⟩

end

end

/-! Delays. -/

namespace Calculus.Delay

variable (δ : Delay) (g : Value)

/-- A root in an environment of its own. -/
def IsHiddenRoot (s : Store) (v : Value) : Prop :=
  ∃ mark env, s.Made ["sf"] (.closure mark (bodyHeader 1 "πsf") (app (attr (var "πd") "d") [δ.term]) [("πd", env)])
    env v ∧ s.Binds "d" g outermost env ∧ env.Inside

/-- A delay over such a root, in an environment of its own. -/
def IsHidden (s : Store) (p : Value) : Prop :=
  ∃ mark scope env root outer, s.Made δ.params (.closure mark (bodyHeader 2 δ.env) δ.body scope) env p ∧
    s.Binds "sf" root outer env ∧ env.Inside ∧ δ.IsHiddenRoot g s root ∧ s.Fresh

/-- The environment in which a call of a delay binds its argument. -/
def Keeps (s : Store) (v env : Value) : Prop :=
  ∃ closed root outer, s.Binds "m" v closed env ∧ env.Inside ∧ s.Binds "sf" root outer closed ∧ closed.Inside ∧
    δ.IsHiddenRoot g s root

/-- A store in which the delays of an earlier one, and what calls of them bound, are as they were. -/
structure Spares (s t : Store) : Prop where
  delays : ∀ p, δ.IsHidden g s p → δ.IsHidden g t p
  arguments : ∀ v env, δ.Keeps g s v env → δ.Keeps g t v env

variable {δ g} {n : Nat} {s t u : Store} {v root root' : Value} {P : Value → Store → Prop}

theorem IsHiddenRoot.later (beneath : Beneath s t) (is : δ.IsHiddenRoot g s v) : δ.IsHiddenRoot g t v := by
  obtain ⟨mark, env, made, binds, inside⟩ := is
  exact ⟨mark, env, beneath.made made, beneath.binds binds, inside⟩

theorem IsHiddenRoot.across (differ : Differ N s t) (is : δ.IsHiddenRoot g s v) : δ.IsHiddenRoot g t v := by
  obtain ⟨mark, env, made, binds, inside⟩ := is
  exact ⟨mark, env, differ.made made, differ.binds inside binds, inside⟩

theorem IsHiddenRoot.inert (is : δ.IsHiddenRoot g s v) : v.Inert := by
  obtain ⟨_, _, made, -⟩ := is
  exact made.inert

theorem IsHidden.later (beneath : Beneath s t) (is : δ.IsHidden g s v) : δ.IsHidden g t v := by
  obtain ⟨mark, scope, env, root, outer, made, binds, inside, inner, new⟩ := is
  exact ⟨mark, scope, env, root, outer, beneath.made made, beneath.binds binds, inside, inner.later beneath,
    beneath.new new⟩

theorem IsHidden.across (differ : Differ N s t) (is : δ.IsHidden g s v) : δ.IsHidden g t v := by
  obtain ⟨mark, scope, env, root, outer, made, binds, inside, inner, new⟩ := is
  exact ⟨mark, scope, env, root, outer, differ.made made, differ.binds inside binds, inside, inner.across differ,
    differ.fresh new⟩

theorem IsHidden.fresh (is : δ.IsHidden g s v) : s.Fresh := by
  obtain ⟨_, _, _, _, _, _, _, _, _, new⟩ := is
  exact new

theorem Spares.of_beneath (beneath : Beneath s t) : δ.Spares g s t where
  delays _ is := is.later beneath
  arguments v env := by
    rintro ⟨closed, root, outer, binds, inside, around, inside', is⟩
    exact ⟨closed, root, outer, beneath.binds binds, inside, beneath.binds around, inside', is.later beneath⟩

theorem Spares.trans (first : δ.Spares g s t) (second : δ.Spares g t u) : δ.Spares g s u where
  delays p is := second.delays p (first.delays p is)
  arguments v env kept := second.arguments v env (first.arguments v env kept)

/-- A root applied to a root gives the generator or the code a new delay, in both states. -/
theorem root_tandem (inert : g.Inert) (called : δ.IsHiddenRoot g s root) (passed : δ.IsHiddenRoot g s root')
    (new : s.Fresh) (differ : Differ N s t) (steady : Steady P)
    (start : ∀ n' u u' p, n' < n → s.Beneath u → Differ N u u' → δ.IsHidden g u p →
      Tandem N P ((Machine.ofFuel n').call g [p] [] u) ((Machine.ofFuel n').call g [p] [] u')) :
    Tandem N P ((Machine.ofFuel n).call root [root'] [] s) ((Machine.ofFuel n).call root [root'] [] t) := by
  obtain ⟨mark, outer, made, binds, inside⟩ := called
  have carries := Value.SelfEvaluating.carries (N := N) passed.inert.evaluated
  refine procedure_call_tandem differ steady made rfl carries new (fun _ => rfl) ?_
  rintro n' root' env u u' less beneath differ' rfl bound inside'
  have read := (beneath.binds binds).attribute ordinary_d inert
  have read' := (differ'.binds inside (beneath.binds binds)).attribute ordinary_d inert
  refine app_tandem (F := fun v w => v = g ∧ u.Beneath w)
    (A := fun v p w => v = g ∧ u.Beneath w ∧ δ.IsHidden g w p)
    (attr_tandem rfl differ' read read' ⟨rfl, Quiet.refl _⟩) ?_ ?_
  · rintro v w w' differ'' ⟨same, later⟩
    have since := beneath.trans later
    refine (procedure_tandem (bodyHeader 2 δ.env) δ.body differ'' (since.new new) δ.single rfl).mono ?_
    rintro p x ⟨later', mark', made'⟩
    have there := later.trans later'
    have since' := beneath.trans there
    exact ⟨same, there, mark', _, env, root', outer, made', there.binds bound, inside', passed.later since',
      since'.new new⟩
  · rintro _ p w w' differ'' ⟨rfl, later, is⟩
    exact start n' w w' p less (beneath.trans later) differ'' is

/-- What an environment binds to a root, applied to itself. -/
theorem twice_tandem {scope : Scope} {name part : String} {env : Value} (bound : scope.lookup name = some env)
    (read : ∀ u, Differ N s u → getAttribute env part u = .ok root u) (inert : g.Inert)
    (is : δ.IsHiddenRoot g s root) (new : s.Fresh) (differ : Differ N s t) (steady : Steady P)
    (start : ∀ n' u u' p, n' < n → s.Beneath u → Differ N u u' → δ.IsHidden g u p →
      Tandem N P ((Machine.ofFuel n').call g [p] [] u) ((Machine.ofFuel n').call g [p] [] u')) :
    Tandem N P ((twice name part).eval (.ofFuel n) scope s) ((twice name part).eval (.ofFuel n) scope t) := by
  have attr {t : Store} (differ : Differ N s t) :
      Tandem N (fun v w => v = root ∧ w = s) ((attr (var name) part).eval (.ofFuel n) scope s)
        ((attr (var name) part).eval (.ofFuel n) scope t) :=
    attr_tandem bound differ (read s (.refl s)) (read t differ) ⟨rfl, rfl⟩
  refine app_tandem (A := fun f v w => f = root ∧ v = root ∧ w = s) (attr differ) ?_ ?_
  · rintro f u u' differ' ⟨rfl, rfl⟩
    exact (attr differ').mono fun v w held => ⟨rfl, held⟩
  · rintro _ _ u u' differ' ⟨rfl, rfl, rfl⟩
    exact root_tandem inert is is new differ' steady start

/-- A combinator gives the generator or the code its first delay. -/
theorem combinator_tandem {mark : Nat} {name : String} (provides : s.Provides name mark (fixedPointBody δ.term))
    (inert : g.Inert) (new : s.Fresh) (differ : Differ N s t) (steady : Steady P)
    (start : ∀ n' u u' p, n' < n → s.Beneath u → Differ N u u' → δ.IsHidden g u p →
      Tandem N P ((Machine.ofFuel n').call g [p] [] u) ((Machine.ofFuel n').call g [p] [] u')) :
    Tandem N P ((Machine.ofFuel n).call (Session.combinator mark (fixedPointBody δ.term)) [g] [] s)
      ((Machine.ofFuel n).call (Session.combinator mark (fixedPointBody δ.term)) [g] [] t) := by
  have carries := Value.SelfEvaluating.carries (N := N) inert.evaluated
  refine procedure_call_tandem differ steady provides.made rfl carries new (fun _ => rfl) ?_
  rintro n' g env u u' less beneath differ' rfl bound inside
  have new' := beneath.new new
  rw [fixedPointBody_eq]
  -- a procedure that applies its argument to itself, and the root that it is given
  refine app_tandem
    (F := fun f w => u.Beneath w ∧ ∃ mark, w.Made ["g"] (.closure mark (bodyHeader 1 "πg") (twice "πg" "g")
      [("πd", env)]) env f)
    (A := fun f v w => u.Beneath w ∧ δ.IsHiddenRoot g w v ∧ ∃ mark, w.Made ["g"] (.closure mark (bodyHeader 1 "πg")
      (twice "πg" "g") [("πd", env)]) env f)
    (procedure_tandem _ _ differ' new' (by decide) rfl) ?_ ?_
  · rintro f w w' differ'' ⟨later, mark', made⟩
    refine (procedure_tandem _ _ differ'' (later.new new') (by decide) rfl).mono ?_
    rintro v x ⟨later', mark'', made'⟩
    have there := later.trans later'
    exact ⟨there, ⟨mark'', env, made', there.binds bound, inside⟩, mark', later'.made made⟩
  · rintro f root w w' differ'' ⟨later, is, mark', made⟩
    have new'' := later.new new'
    refine procedure_call_tandem differ'' steady made rfl (Value.SelfEvaluating.carries is.inert.evaluated) new''
      (fun _ => rfl) ?_
    rintro n'' root env' x x' less' beneath' differ₃ rfl bound' inside'
    have since := (beneath.trans later).trans beneath'
    refine twice_tandem rfl (fun y differ₄ => (differ₄.binds inside' bound').attribute ordinary_g is.inert) inert
      (is.later beneath') (beneath'.new new'') differ₃ steady ?_
    exact fun n₃ y y' p less'' beneath'' => start n₃ y y' p (by omega) (since.trans beneath'')

/-- Asking a delay gives the generator another one, in both states. -/
theorem asked_tandem {p : Value} (inert : g.Inert) (is : thunked.IsHidden g s p) (differ : Differ N s t)
    (steady : Steady P)
    (start : ∀ n' u u' p, n' < n → s.Beneath u → Differ N u u' → thunked.IsHidden g u p →
      Tandem N P ((Machine.ofFuel n').call g [p] [] u) ((Machine.ofFuel n').call g [p] [] u')) :
    Tandem N P ((Machine.ofFuel n).call p [] [] s) ((Machine.ofFuel n).call p [] [] t) := by
  obtain ⟨mark, scope, env, root, outer, made, binds, inside, is, new⟩ := is
  refine thunk_call_tandem differ steady made new (fun _ => rfl) fun n' u u' less beneath differ' => ?_
  have binds' := beneath.binds binds
  refine twice_tandem rfl (fun w differ'' => (differ''.binds inside binds').attribute ordinary_sf is.inert) inert
    (is.later beneath) (beneath.new new) differ' steady ?_
  exact fun n'' w w' p less' beneath' => start n'' w w' p (by omega) (beneath.trans beneath')

end Calculus.Delay

end Knot
