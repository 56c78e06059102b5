import Knot.Proofs.FixedPoints.Handing

/-!
What the combinators of the calculus come to, level by level. Until a combinator or a delay calls the
generator or the code, it makes procedures and environments of its own and goes on as another call does,
with less fuel; the store only has more then.
-/

namespace Knot

open Run Term Prelude Machine

/-! Stores that only have more. -/

namespace Store

/-- A store with more marks and frames given out than an earlier one, where nothing else has changed. -/
structure Extends (s t : Store) : Prop where
  adds : Adds [] s t
  writer : t.writer = s.writer

variable {s t u : Store} {name : String} {v outer env proc : Value} {params : List String} {header : Header}
  {body : Term} {scope : Scope}

namespace Extends

theorem refl (s : Store) : s.Extends s := ⟨.refl .., rfl⟩

theorem trans (first : s.Extends t) (second : t.Extends u) : s.Extends u :=
  ⟨first.adds.trans second.adds, second.writer.trans first.writer⟩

theorem skip (s : Store) (n : Nat) : s.Extends (s.skip n) := ⟨.skip .., rfl⟩

theorem tallies (more : s.Extends t) : t.tallies = s.tallies := by
  simpa using more.adds.tallies

theorem quiet (more : s.Extends t) : Quiet s t where
  rest := by
    have tallies := more.tallies
    obtain ⟨-, -, -, -, -, -, tables, given, namespaces, -, session, stack, out⟩ := more.adds
    have writer := more.writer
    cases s
    cases t
    simp_all
  marks := more.adds.marks
  size := more.adds.size
  frames id known := more.adds.same id known
  contents _ _ := by rw [more.adds.contents]
  tallies _ _ := by rw [more.tallies]
  entered _ _ := by rw [more.adds.entered]
  fresh new :=
    { positive := new.positive.trans_le more.adds.marks
      opened := new.opened.trans_le more.adds.size
      contents := fun m above => more.adds.contents ▸ new.contents m (more.adds.marks.trans above)
      tables := fun m above => more.adds.tables ▸ new.tables m (more.adds.marks.trans above)
      namespaces := fun m above => more.adds.namespaces ▸ new.namespaces m (more.adds.marks.trans above)
      entered := fun m above => more.adds.entered ▸ new.entered m (more.adds.marks.trans above)
      given := fun id name above => more.adds.given ▸ new.given id name (more.adds.size.trans above) }

theorem room (more : s.Extends t) (room : s.stack.room = none) : t.stack.room = none :=
  more.adds.stack ▸ room

end Extends

/-- An environment of one name that was made since an earlier store. -/
def BindsNew (s t : Store) (name : String) (v outer env : Value) : Prop :=
  ∃ id, env = .environment id outer ∧ s.frames.size ≤ id ∧ id < t.frames.size ∧
    (t.frame id).bindings = [(name, v)]

/-- A procedure that was made since an earlier store. -/
def MakesNew (s t : Store) (params : List String) (header : Header) (body : Term) (scope : Scope)
    (env proc : Value) : Prop :=
  ∃ mark dict list own, proc = .procedure mark (.dict dict (code (.closure own header body scope) list params)) env ∧
    (s.nextMark ≤ dict ∧ dict < t.nextMark) ∧ (s.nextMark ≤ list ∧ list < t.nextMark) ∧
      s.nextMark ≤ mark ∧ mark < t.nextMark

theorem BindsNew.later (binds : s.BindsNew t name v outer env) (more : t.Extends u) :
    s.BindsNew u name v outer env := by
  obtain ⟨id, rfl, new, known, bound⟩ := binds
  exact ⟨id, rfl, new, known.trans_le more.adds.size, (congrArg Frame.bindings (more.adds.same id known)).trans bound⟩

theorem BindsNew.before (more : s.Extends t) (binds : t.BindsNew u name v outer env) :
    s.BindsNew u name v outer env := by
  obtain ⟨id, rfl, new, known, bound⟩ := binds
  exact ⟨id, rfl, more.adds.size.trans new, known, bound⟩

theorem BindsNew.binds (new : s.Fresh) (more : s.Extends t) (binds : s.BindsNew t name v outer env) :
    t.Binds name v outer env := by
  obtain ⟨id, rfl, above, known, bound⟩ := binds
  exact ⟨id, rfl, known, bound, fun other => more.adds.given ▸ new.given id other above⟩

theorem MakesNew.later (makes : s.MakesNew t params header body scope env proc) (more : t.Extends u) :
    s.MakesNew u params header body scope env proc := by
  obtain ⟨mark, dict, list, own, rfl, dicts, lists, known⟩ := makes
  have marks := more.adds.marks
  exact ⟨mark, dict, list, own, rfl, ⟨dicts.1, dicts.2.trans_le marks⟩, ⟨lists.1, lists.2.trans_le marks⟩, known.1,
    known.2.trans_le marks⟩

theorem MakesNew.before (more : s.Extends t) (makes : t.MakesNew u params header body scope env proc) :
    s.MakesNew u params header body scope env proc := by
  obtain ⟨mark, dict, list, own, rfl, dicts, lists, known⟩ := makes
  have marks := more.adds.marks
  exact ⟨mark, dict, list, own, rfl, ⟨marks.trans dicts.1, dicts.2⟩, ⟨marks.trans lists.1, lists.2⟩,
    marks.trans known.1, known.2⟩

theorem MakesNew.made (new : s.Fresh) (more : s.Extends t) (makes : s.MakesNew t params header body scope env proc) :
    ∃ own, t.Made params (.closure own header body scope) env proc := by
  obtain ⟨mark, dict, list, own, rfl, dicts, lists, -⟩ := makes
  refine ⟨own, mark, dict, list, rfl, new.positive.trans_le lists.1, lists.2, dicts.2, ?_, ?_⟩
  · rw [more.adds.contents]
    exact new.contents list lists.1
  · exact table?_later more.quiet (new.table? dicts.1)

theorem opened_extends (s : Store) : s.Extends s.opened where
  adds := by
    refine ⟨Nat.le_succ _, by simp [opened, push], fun id known => ?_, fun id inside above => ?_, rfl, rfl, rfl, rfl,
      rfl, rfl, rfl, rfl, rfl⟩
    · exact (Quiet.opened s).frames id known
    · have size : s.opened.frames.size = s.frames.size + 1 := by simp [opened, push]
      obtain rfl : id = s.frames.size := by omega
      rw [s.opened_frame]
      exact ⟨Nat.le_refl _, Nat.lt_succ_self _⟩
  writer := rfl

/-- The one binding of a new environment. -/
theorem bind_opened_new (new : s.Fresh) (plain : isReserved name = false) (v outer : Value) :
    ∃ u, writing .call (Run.bind s.frames.size name v) s.opened = .ok () u ∧ s.Extends u ∧
      s.BindsNew u name v outer (.environment s.frames.size outer) := by
  obtain ⟨frame, bindings, marked, journal, run⟩ := bind_opened_eq (Quiet.refl s.opened) new plain v
  have size : s.opened.frames.size = s.frames.size + 1 := by simp [opened, push]
  have known : s.frames.size < s.opened.frames.size := by omega
  have held (id : Nat) : frameAt (s.opened.frames.setIfInBounds s.frames.size frame) id =
      if id = s.frames.size then frame else frameAt s.opened.frames id := by
    rw [frameAt_set]
    simp [known]
  have opens := (opened_extends s).adds
  refine ⟨_, run, ⟨?_, rfl⟩, s.frames.size, rfl, Nat.le_refl _, ?_, ?_⟩
  · refine ⟨opens.marks, ?_, fun id below => ?_, fun id inside above => ?_, rfl, rfl, rfl, rfl, rfl, rfl, rfl, rfl,
      rfl⟩
    · rw [Array.size_setIfInBounds]
      exact opens.size
    · dsimp only
      rw [held, if_neg (Nat.ne_of_lt below)]
      exact opens.same id below
    · rw [Array.size_setIfInBounds] at inside
      obtain rfl : id = s.frames.size := by omega
      change s.nextMark ≤ (frameAt (s.opened.frames.setIfInBounds _ frame) _).mark ∧
        (frameAt (s.opened.frames.setIfInBounds _ frame) _).mark < s.opened.nextMark
      rw [held, if_pos rfl, marked]
      exact ⟨Nat.le_refl _, Nat.lt_succ_self _⟩
  · rw [Array.size_setIfInBounds]
    exact known
  · change (frameAt (s.opened.frames.setIfInBounds _ frame) _).bindings = _
    rw [held, if_pos rfl, bindings]

end Store

open Store

/-! Computations that go on. -/

/-- What follows on computations that end alike ends alike. -/
theorem Run.bind_of_eq {α β : Type} {x y : Run α} {s t : Store} {f : α → Run β} (same : x s = y t) :
    (x >>= f) s = (y >>= f) t := by
  change EStateM.bind _ _ s = EStateM.bind _ _ t
  simp only [EStateM.bind, same]

/-- A computation goes on, from a store, as another one does from a store that only has more, when some
levels of fuel are spent; with less fuel it stops. -/
structure GoesOn {α : Type} (x : Nat → Run α) (s : Store) (levels : Nat) (y : Nat → Run α) (t : Store) : Prop where
  more : s.Extends t
  run : ∀ n, x (n + levels) s = y n t
  short : ∀ n < levels, ∃ u, x n s = .error .outOfFuel u

namespace GoesOn

variable {α β : Type} {x y z : Nat → Run α} {s t u : Store} {levels levels' : Nat}

/-- What only makes something does so at once. -/
theorem of_eq (more : s.Extends t) (run : ∀ n, x n s = y n t) : GoesOn x s 0 y t :=
  ⟨more, run, fun n few => absurd few (Nat.not_lt_zero n)⟩

theorem of_same {x' : Nat → Run α} (same : ∀ n, x n s = x' n s) (goes : GoesOn x' s levels y t) :
    GoesOn x s levels y t :=
  ⟨goes.more, fun n => (same _).trans (goes.run n),
    fun n few => (goes.short n few).imp fun _ stopped => (same n).trans stopped⟩

theorem trans (first : GoesOn x s levels y t) (second : GoesOn y t levels' z u) :
    GoesOn x s (levels + levels') z u where
  more := first.more.trans second.more
  run n := by rw [Nat.add_comm levels, ← Nat.add_assoc, first.run, second.run]
  short n few := by
    by_cases less : n < levels
    · exact first.short n less
    · obtain ⟨n, rfl⟩ := Nat.exists_eq_add_of_le' (Nat.le_of_not_lt less)
      obtain ⟨u, stopped⟩ := second.short n (by omega)
      exact ⟨u, (first.run n).trans stopped⟩

/-- The same computation, where one level is there anyway. -/
theorem pred (goes : GoesOn x s (levels + 1) y t) : GoesOn (fun n => x (n + 1)) s levels y t :=
  ⟨goes.more, goes.run, fun n few => goes.short (n + 1) (Nat.succ_lt_succ few)⟩

/-- What follows on a computation goes on from where that ends. -/
theorem next {a : α} {f : Nat → α → Run β} (goes : GoesOn x s levels (fun _ => pure a) t) :
    GoesOn (fun n => x n >>= f n) s levels (fun n => f (n + levels) a) t where
  more := goes.more
  run n := bind_of_ok (goes.run n)
  short n few := (goes.short n few).elim fun u stopped => ⟨u, bind_of_error stopped⟩

theorem bind {f : Nat → α → Run β} (goes : GoesOn x s levels y t) :
    GoesOn (fun n => x n >>= f n) s levels (fun n => y n >>= f (n + levels)) t where
  more := goes.more
  run n := bind_of_eq (goes.run n)
  short n few := (goes.short n few).elim fun u stopped => ⟨u, bind_of_error stopped⟩

end GoesOn

/-! Rules by which the calculus goes as in the language. -/

namespace Machine

/-- A call goes by the rule of the language. -/
def Unaltered (rule : Rule) (f : Value) (args : List Value) : Prop :=
  ∀ k, rule k f args [] = callValue k f args []

/-- Rules that call by the rule of the language whatever the calculus is made of: procedures that get nothing or a
root, bodies and what makes procedures. -/
structure Faithful (rule : Rule) : Prop where
  asked : ∀ mark code env, Unaltered rule (.procedure mark code env) []
  rooted : ∀ mark code env mark' dict own body scope list env', Unaltered rule (.procedure mark code env)
    [.procedure mark' (.dict dict (Store.code (.closure own (Calculus.bodyHeader 1 "πsf") body scope) list ["sf"])) env']
  body : ∀ mark depth p body scope id outer,
    Unaltered rule (.closure mark (Calculus.bodyHeader depth p) body scope) [.environment id outer]
  lambda : ∀ body list names env, Unaltered rule (.builtin .lambda) [body, .list list names, env]

theorem bodyHeader_ne_seal (depth : Nat) (p : String) : Calculus.bodyHeader depth p ≠ Value.sealHeader := by
  intro same
  have named := congrArg Header.name same
  simp [Calculus.bodyHeader, Value.sealHeader] at named

/-- The rule by which code is held to what it may do is one of them. -/
theorem faithful_holding (h : Handing) (seals : Bool) : Faithful (holding h seals) where
  asked _ _ _ _ := holding_eq rfl rfl
  rooted _ _ _ _ _ _ _ _ _ _ _ := by
    refine holding_eq rfl (Handing.nothing_handed_of_not_delay ?_)
    rw [Value.isDelay_procedure]
    cases h.direct <;> decide
  body _ depth p _ _ _ _ _ := holding_eq (Value.sealed_closure (bodyHeader_ne_seal depth p) _ _)
    (Handing.nothing_handed_of_not_delay rfl)
  lambda _ _ _ _ _ := holding_eq rfl rfl

end Machine

namespace Calculus

variable {rule : Rule} (faithful : Faithful rule) {s : Store} (room : s.stack.room = none) (new : s.Fresh)
  {name p : String} {own depth : Nat} {term : Term} {scope : Scope} {arg closed proc : Value}
  {params : List String}

section

include faithful room

/-- A body goes on in an environment. -/
theorem body_goes (n id : Nat) (outer : Value) :
    (levels rule (n + 1)).app (.closure own (bodyHeader depth p) term scope) [.environment id outer] s =
      term.eval (levels rule n) ((p, .environment id outer) :: scope) s := by
  rw [Machine.app, levels_call room, faithful.body]
  rfl

include new

/-- A procedure of one parameter goes on as its body does, in a new environment. -/
theorem procedure_goesOn (made : s.Made [name] (.closure own (bodyHeader depth p) term scope) closed proc)
    (unaltered : Unaltered rule proc [arg]) (plain : isReserved name = false) (inert : arg.isInert) :
    ∃ env t, (s.skip 1).BindsNew t name arg closed env ∧ (s.skip 1).Extends t ∧
      GoesOn (fun n => (levels rule n).call proc [arg] []) s 2
        (fun n => term.eval (levels rule n) ((p, env) :: scope)) t := by
  have new' : (s.skip 1).Fresh := (Extends.skip s 1).quiet.fresh new
  have unchanged : (s.skip 1).contents.lookup s.nextMark = none := new.contents _ (Nat.le_refl _)
  have made' := made.later (Extends.skip s 1).quiet
  obtain ⟨u, bound, more, binds'⟩ := bind_opened_new new' plain arg closed
  obtain ⟨mark, dict, list, rfl, positive, -, -, nothing, table⟩ := made
  have called (n : Nat) : (levels rule (n + 1)).call
      (.procedure mark (.dict dict (code (.closure own (bodyHeader depth p) term scope) list [name])) closed) [arg] []
        s = apply (levels rule n)
          (.procedure mark (.dict dict (code (.closure own (bodyHeader depth p) term scope) list [name])) closed)
          (.list s.nextMark [arg]) closed (s.skip 1) := by
    rw [levels_call room, unaltered]
    rfl
  refine ⟨_, u, binds', more, (Extends.skip s 1).trans more, fun n => ?_, fun n few => ?_⟩
  · have ran : (levels rule (n + 1)).evaluate arg closed (s.skip 1).opened = .ok arg (s.skip 1).opened := by
      change deeper _ _ = _
      simp only [deeper, show (s.skip 1).opened.stack.room = none from room, Option.isNone_none, if_true,
        (Value.inert_of_isInert inert).evaluated (levels rule n) closed]
      rfl
    have all : bindAll (levels rule (n + 1)) (.environment (s.skip 1).frames.size closed) closed [.str name] [arg]
        (s.skip 1).opened = .ok () u := by
      rw [bindAll_one, bind_of_ok ran, bind_of_ok bound]
      rfl
    refine (called (n + 1)).trans
      ((apply_one_code (s := s.skip 1) _ closed arg positive nothing table unchanged).trans ?_)
    rw [bind_of_ok all, bind_of_ok (item_body (table?_later more.quiet table) rfl)]
    exact body_goes faithful (more.room room) n _ closed
  · obtain rfl | rfl : n = 0 ∨ n = 1 := by omega
    · exact ⟨s, rfl⟩
    · exact ⟨_, (called 0).trans (apply_one_error made' unchanged rfl)⟩

/-- A procedure without parameters goes on as its body does, in the environment that it closes over. -/
theorem thunk_goesOn {id : Nat} {outer : Value}
    (made : s.Made [] (.closure own (bodyHeader depth p) term scope) (.environment id outer) proc) :
    GoesOn (fun n => (levels rule n).call proc [] []) s 2
      (fun n => term.eval (levels rule n) ((p, .environment id outer) :: scope)) (s.skip 1) := by
  have unchanged : (s.skip 1).contents.lookup s.nextMark = none := new.contents _ (Nat.le_refl _)
  have made' := made.later (Extends.skip s 1).quiet
  have called (n : Nat) : (levels rule (n + 1)).call proc [] [] s =
      (levels rule n).app (.closure own (bodyHeader depth p) term scope) [.environment id outer] (s.skip 1) := by
    obtain ⟨mark, dict, list, same, -⟩ := made
    have applied : apply (levels rule n) proc (.list s.nextMark []) (.environment id outer) (s.skip 1) = _ :=
      apply_none_eq made' rfl unchanged
    refine Eq.trans ?_ applied
    rw [same, levels_call room, faithful.asked]
    rfl
  refine ⟨.skip s 1, fun n => (called (n + 1)).trans (body_goes (s := s.skip 1) faithful room n id outer),
    fun n few => ?_⟩
  obtain rfl | rfl : n = 0 ∨ n = 1 := by omega
  · exact ⟨s, rfl⟩
  · exact ⟨_, called 0⟩

/-- A term that makes a procedure does so with one level of fuel. -/
theorem procedure_term_goesOn (params : List String) (header : Header) (body : Term) (scope : Scope) (env : String)
    (single : params.length ≤ 1) (bound : scope.lookup env = some closed) :
    ∃ proc t, s.MakesNew t params header body scope closed proc ∧
      GoesOn (fun n => (Prelude.procedure (lam header body) params (var env)).eval (levels rule n) scope) s 1
        (fun _ => pure proc) t := by
  have listed (n : Nat) : (Prelude.procedure (lam header body) params (var env)).eval (levels rule n) scope s =
      (levels rule n).call (.builtin .lambda)
        [.closure s.nextMark header body scope, .list (s.nextMark + 1) (params.map .str), closed] [] (s.skip 2) := by
    rw [Prelude.procedure, Term.app, Term.eval]
    exact (bind_of_ok rfl).trans (bind_of_ok (evalAll_procedure header body params bound s))
  have made (n : Nat) : (Prelude.procedure (lam header body) params (var env)).eval (levels rule (n + 1)) scope s =
      lambda (.closure s.nextMark header body scope) (.list (s.nextMark + 1) (params.map .str)) closed (s.skip 2) := by
    rw [listed, levels_call (s := s.skip 2) room, faithful.lambda]
    rfl
  have new' : (s.skip 2).Fresh := (Extends.skip s 2).quiet.fresh new
  have unchanged : (s.skip 2).contents.lookup (s.nextMark + 1) = none := new.contents _ (Nat.le_succ _)
  have short (n : Nat) (few : n < 1) : ∃ u, (Prelude.procedure (lam header body) params (var env)).eval
      (levels rule n) scope s = .error .outOfFuel u := by
    obtain rfl := Nat.lt_one_iff.mp few
    exact ⟨_, listed 0⟩
  cases params with
  | nil =>
      refine ⟨_, (s.skip 2).skip 3, ⟨_, _, _, _, rfl, ?_⟩, (Extends.skip s 2).trans (.skip _ 3),
        fun n => (made n).trans (lambda_nil_eq _ closed new' unchanged), short⟩
      simp only [Store.skip]
      omega
  | cons name others =>
      obtain rfl : others = [] := by simpa using single
      refine ⟨_, (s.skip 2).skip 2, ⟨_, _, _, _, rfl, ?_⟩, (Extends.skip s 2).trans (.skip _ 2),
        fun n => (made n).trans (lambda_one_eq _ closed new' (Nat.succ_pos _) unchanged name), short⟩
      simp only [Store.skip]
      omega

end

omit faithful room new in
/-- A call of one argument evaluates its function, then the argument. -/
theorem app_eval (k : Machine) (f a : Term) : (Term.app f [a]).eval k scope =
    (f.eval k scope >>= fun function => a.eval k scope >>= fun v => k.call function [v] []) := by
  rw [Term.app, Term.eval, Form.calling, evalAll_one, Form.following, Term.evalNamed]
  simp only [bind_assoc, pure_bind]
  rfl

omit faithful room new in
/-- A call whose function is at hand goes on when its argument is. -/
theorem app_goesOn {f a : Term} {function v : Value} {cost : Nat} {t : Store}
    (callee : ∀ n, f.eval (levels rule n) scope s = .ok function s)
    (argument : GoesOn (fun n => a.eval (levels rule n) scope) s cost (fun _ => pure v) t) :
    GoesOn (fun n => (Term.app f [a]).eval (levels rule n) scope) s cost
      (fun n => (levels rule (n + cost)).call function [v] []) t :=
  .of_same (fun n => by rw [app_eval, bind_of_ok (callee n)])
    (argument.next (f := fun n v => (levels rule n).call function [v] []))

/-! The combinators. -/

theorem bodyHeader_first : Session.bodyHeader = bodyHeader 0 "πd" := by decide

namespace Delay

variable (δ : Delay)

/-- A root for a generator or code, made since an earlier store. -/
def MakesRoot (g : Value) (s t : Store) (root : Value) : Prop :=
  ∃ env, s.BindsNew t "d" g outermost env ∧
    s.MakesNew t ["sf"] (bodyHeader 1 "πsf") (Term.app (attr (var "πd") "d") [δ.term]) [("πd", env)] env root

/-- A delay over a root, made since an earlier store. -/
def MakesDelay (s t : Store) (root p : Value) : Prop :=
  ∃ env id, s.BindsNew t "sf" root (.environment id outermost) env ∧
    s.MakesNew t δ.params (bodyHeader 2 δ.env) δ.body [("πsf", env), ("πd", .environment id outermost)] env p

variable {δ} {g root p : Value} {t u : Store}

theorem MakesRoot.later (makes : δ.MakesRoot g s t root) (more : t.Extends u) : δ.MakesRoot g s u root :=
  makes.imp fun _ made => ⟨made.1.later more, made.2.later more⟩

theorem MakesRoot.is (new : s.Fresh) (more : s.Extends t) (makes : δ.MakesRoot g s t root) : δ.IsRoot g t root := by
  obtain ⟨env, binds, made⟩ := makes
  obtain ⟨own, made⟩ := made.made new more
  exact ⟨own, env, made, binds.binds new more⟩

theorem MakesDelay.before (more : s.Extends t) (makes : δ.MakesDelay t u root p) : δ.MakesDelay s u root p := by
  obtain ⟨env, id, binds, made⟩ := makes
  exact ⟨env, id, binds.before more, made.before more⟩

theorem isInert_of_isRoot (is : δ.IsRoot g s root) : root.isInert := by
  obtain ⟨_, _, ⟨_, _, _, rfl, -⟩, -⟩ := is
  rfl

include faithful in
/-- Procedures get roots by the rule of the language. -/
theorem unaltered_of_isRoot {body : Value} (made : s.Made params body closed proc) (is : δ.IsRoot g t root) :
    Unaltered rule proc [root] := by
  obtain ⟨_, _, _, rfl, -⟩ := made
  obtain ⟨_, _, ⟨_, _, _, rfl, -⟩, -⟩ := is
  intro k
  exact faithful.rooted ..

variable (inert : g.isInert)
include faithful room new inert

/-- A root applied to itself goes on as the generator or the code does with a new delay. -/
theorem root_goesOn (is : δ.IsRoot g s root) :
    ∃ p t, δ.MakesDelay (s.skip 1) t root p ∧ (s.skip 1).Extends t ∧
      GoesOn (fun n => (levels rule n).call root [root] []) s 3 (fun n => (levels rule (n + 1)).call g [p] []) t := by
  have passed := isInert_of_isRoot is
  have unaltered : Unaltered rule root [root] := unaltered_of_isRoot faithful is.choose_spec.choose_spec.1 is
  obtain ⟨own, _, made, id, rfl, given⟩ := is
  have binds : s.Binds "d" g outermost (.environment id outermost) := ⟨id, rfl, given⟩
  obtain ⟨env, u, bound, more, opens⟩ := procedure_goesOn faithful room new made unaltered rfl passed
  have later := opens.more
  obtain ⟨p, t, made', makes⟩ := procedure_term_goesOn faithful (later.room room) (later.quiet.fresh new)
    δ.params (bodyHeader 2 δ.env) δ.body [("πsf", env), ("πd", .environment id outermost)] "πsf" δ.single rfl
  have read (n : Nat) :
      (attr (var "πd") "d").eval (levels rule n) [("πsf", env), ("πd", .environment id outermost)] u = .ok g u :=
    (attr_eq rfl).trans ((binds.later later.quiet).attribute ordinary_d (Value.inert_of_isInert inert))
  exact ⟨p, t, ⟨env, id, bound.later makes.more, made'.before more⟩, more.trans makes.more,
    opens.trans (app_goesOn read makes)⟩

/-- So does what an environment binds to a root, applied to itself. -/
theorem twice_goesOn (scope : Scope) (name : String) {part : String} {env : Value} (bound : scope.lookup name = some env)
    (read : getAttribute env part s = .ok root s) (is : δ.IsRoot g s root) :
    ∃ p t, δ.MakesDelay (s.skip 1) t root p ∧ (s.skip 1).Extends t ∧
      GoesOn (fun n => (twice name part).eval (levels rule n) scope) s 3
        (fun n => (levels rule (n + 1)).call g [p] []) t := by
  have found (n : Nat) : (attr (var name) part).eval (levels rule n) scope s = .ok root s := (attr_eq bound).trans read
  obtain ⟨p, t, makes, more, goes⟩ := root_goesOn (δ := δ) faithful room new inert is
  exact ⟨p, t, makes, more, (app_goesOn found (.of_eq (.refl s) found)).trans goes⟩

/-- A combinator goes on as the generator or the code does with its first delay. -/
theorem combinator_goesOn {mark : Nat} (provides : s.Provides name mark (fixedPointBody δ.term))
    (unaltered : Unaltered rule (Session.combinator mark (fixedPointBody δ.term)) [g]) :
    ∃ root p t, δ.MakesRoot g (s.skip 1) t root ∧ δ.MakesDelay (s.skip 1) t root p ∧ (s.skip 1).Extends t ∧
      GoesOn (fun n => (levels rule n).call (Session.combinator mark (fixedPointBody δ.term)) [g] []) s 7
        (fun n => (levels rule (n + 1)).call g [p] []) t := by
  have first := provides.made
  rw [bodyHeader_first] at first
  obtain ⟨env, t₁, bound, more, opens⟩ := procedure_goesOn faithful room new first unaltered rfl inert
  have new₁ := opens.more.quiet.fresh new
  have room₁ := opens.more.room room
  -- what applies its argument to itself, and the root that it is given
  obtain ⟨f, t₂, made₂, makes₂⟩ := procedure_term_goesOn faithful room₁ new₁
    ["g"] (bodyHeader 1 "πg") (twice "πg" "g") [("πd", env)] "πd" (by decide) rfl
  have new₂ := makes₂.more.quiet.fresh new₁
  have room₂ := makes₂.more.room room₁
  obtain ⟨root, t₃, made₃, makes₃⟩ := procedure_term_goesOn faithful room₂ new₂
    ["sf"] (bodyHeader 1 "πsf") (Term.app (attr (var "πd") "d") [δ.term]) [("πd", env)] "πd" (by decide) rfl
  have new₃ := makes₃.more.quiet.fresh new₂
  have room₃ := makes₃.more.room room₂
  have roots : δ.MakesRoot g (s.skip 1) t₃ root :=
    ⟨env, (bound.later makes₂.more).later makes₃.more, made₃.before (more.trans makes₂.more)⟩
  have applied : GoesOn (fun n => (fixedPointBody δ.term).eval (levels rule n) [("πd", env)]) t₁ 1
      (fun n => (levels rule (n + 1)).call f [root] []) t₃ := by
    refine ⟨makes₂.more.trans makes₃.more, fun n => ?_, fun n few => ?_⟩
    · rw [fixedPointBody_eq, app_eval]
      exact (bind_of_ok (makes₂.run n)).trans (bind_of_ok (makes₃.run n))
    · obtain ⟨u, stopped⟩ := makes₂.short n few
      rw [fixedPointBody_eq, app_eval]
      exact ⟨u, bind_of_error stopped⟩
  -- it opens an environment in turn, in which it applies the root to itself
  have is := roots.is ((Extends.skip s 1).quiet.fresh new) (more.trans applied.more)
  obtain ⟨own, made⟩ := made₂.made new₁ makes₂.more
  have passed : Unaltered rule f [root] := unaltered_of_isRoot faithful made is
  obtain ⟨env', t₄, bound', opened, calls⟩ := procedure_goesOn faithful room₃ new₃ (made.later makes₃.more.quiet)
    passed rfl (isInert_of_isRoot is)
  have new₄ := calls.more.quiet.fresh new₃
  have read : getAttribute env' "g" t₄ = .ok root t₄ :=
    (bound'.binds ((Extends.skip t₃ 1).quiet.fresh new₃) opened).attribute ordinary_g
      (Value.inert_of_isInert (isInert_of_isRoot is))
  obtain ⟨p, t, makes, more', goes⟩ := twice_goesOn (δ := δ) faithful (calls.more.room room₃) new₄ inert
    [("πg", env'), ("πd", env)] "πg" rfl read (is.later calls.more.quiet.beneath)
  have before := (more.trans applied.more).trans (calls.more.trans (.skip t₄ 1))
  exact ⟨root, p, t, roots.later (calls.more.trans goes.more), makes.before before,
    more.trans (applied.more.trans (calls.more.trans goes.more)),
    ((opens.trans applied).trans calls.pred).trans goes⟩

/-- Asking a delay goes on as the generator does with another one. -/
theorem asked_goesOn {outer : Value} {id : Nat}
    (made : s.Made [] (.closure own (bodyHeader 2 thunked.env) thunked.body scope) (.environment id outer) p)
    (binds : s.Binds "sf" root outer (.environment id outer)) (is : thunked.IsRoot g s root) :
    ∃ p' t, thunked.MakesDelay (s.skip 1) t root p' ∧ (s.skip 1).Extends t ∧
      GoesOn (fun n => (levels rule n).call p [] []) s 5 (fun n => (levels rule (n + 1)).call g [p'] []) t := by
  have goes := thunk_goesOn faithful room new made
  have read : getAttribute (.environment id outer) "sf" (s.skip 1) = .ok root (s.skip 1) :=
    (binds.later goes.more.quiet).attribute ordinary_sf (Value.inert_of_isInert (isInert_of_isRoot is))
  obtain ⟨p', t, makes, more, rest⟩ := twice_goesOn (δ := thunked) faithful (goes.more.room room)
    (goes.more.quiet.fresh new) inert (("πt", .environment id outer) :: scope) "πt" rfl read
    (is.later goes.more.quiet.beneath)
  exact ⟨p', t, makes.before (.skip _ 1), rest.more, goes.trans rest⟩

omit inert in
/-- A delay applied goes on as what the code makes of another one, which gets the argument from where the call
bound it. -/
theorem applied_goesOn {env outer v : Value}
    (made : s.Made ["m"] (.closure own (bodyHeader 2 direct.env) direct.body scope) env p)
    (binds : s.Binds "sf" root outer env) (is : direct.IsRoot g s root) (unaltered : Unaltered rule p [v])
    (fit : v.isInert) :
    ∃ frame t, (s.skip 1).BindsNew t "m" v env frame ∧ (s.skip 1).Extends t ∧
      GoesOn (fun n => (levels rule n).call p [v] []) s 2
        (fun n => (levels rule n).call root [root] [] >>= fun f =>
          getAttribute frame "m" >>= fun v => (levels rule n).call f [v] []) t := by
  obtain ⟨frame, t, bound, more, goes⟩ := procedure_goesOn faithful room new made unaltered rfl fit
  have around : t.Binds "sf" root outer env := binds.later goes.more.quiet
  have inert' := Value.inert_of_isInert (isInert_of_isRoot is)
  have read : getAttribute frame "sf" t = .ok root t :=
    (bound.binds ((Extends.skip s 1).quiet.fresh new) more).attribute_outer ordinary_sf (by decide) inert'
      (around.lookup ordinary_sf.plain)
  refine ⟨frame, t, bound, more, goes.trans (.of_eq (.refl t) fun n => ?_)⟩
  have found : (attr (var "π") "sf").eval (levels rule n) (("π", frame) :: scope) t = .ok root t :=
    (attr_eq rfl).trans read
  have both : (twice "π" "sf").eval (levels rule n) (("π", frame) :: scope) t =
      (levels rule n).call root [root] [] t := by
    rw [twice, app_eval, bind_of_ok found, bind_of_ok found]
  have reads : (attr (var "π") "m").eval (levels rule n) (("π", frame) :: scope) = getAttribute frame "m" :=
    funext fun _ => attr_eq rfl
  rw [direct, app_eval, reads]
  exact bind_of_eq both

end Delay

end Calculus

end Knot
