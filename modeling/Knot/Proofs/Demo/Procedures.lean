import Knot.Proofs.Calls.Arguments
import Knot.Proofs.Demo.Recursion
import Knot.Proofs.Journal.Lookup

/-!
Procedures of at most one parameter. What is recorded of a procedure that was just made is nothing, so its
body runs in an environment that binds the parameter to the argument and stands in the one that the
procedure closes over.
-/

namespace Knot

open Run Store Term

/-- A name that no environment has a part of its own under. -/
structure Ordinary (name : String) : Prop where
  plain : isReserved name = false
  visible : name.startsWith "__" = false
  unowned : ∀ (s : Store) (id : Nat) (outer : Value), s.ownAttribute? (.environment id outer) name = none

/-- A value that stands for itself. -/
structure Value.Inert (v : Value) : Prop where
  marked : Run.marked v = pure v
  evaluated : ∀ (k : Machine) (env : Value), Calculus.eval k v env = pure v

namespace Value

theorem inert_int (i : Int) : (int i).Inert := ⟨rfl, fun _ _ => rfl⟩

theorem inert_builtin (b : Builtin) : (builtin b).Inert := ⟨rfl, fun _ _ => rfl⟩

theorem inert_procedure (mark : Nat) (code env : Value) : (procedure mark code env).Inert :=
  ⟨rfl, fun _ _ => rfl⟩

end Value

namespace Store

variable {s t : Store} {name : String} {v outer env : Value}

/-! Environments of one name. -/

/-- An environment whose frame binds one name. -/
def Binds (s : Store) (name : String) (v outer env : Value) : Prop :=
  ∃ id, env = .environment id outer ∧ id < s.frames.size ∧ (s.frame id).bindings = [(name, v)] ∧
    ∀ other, s.given.lookup (.environment id, other) = none

theorem Binds.later (binds : s.Binds name v outer env) (quiet : Quiet s t) : t.Binds name v outer env := by
  obtain ⟨id, rfl, known, bindings, given⟩ := binds
  refine ⟨id, rfl, known.trans_le quiet.size, ?_, ?_⟩
  · rw [quiet.frames id known, bindings]
  · rwa [quiet.given]

theorem Binds.lookup (binds : s.Binds name v outer env) (plain : isReserved name = false) :
    env.lookup s.frame name = .ok v := by
  obtain ⟨id, rfl, -, bindings, -⟩ := binds
  have found : frameValue? s.frame id name = some v := by
    rw [frameValue?_plain plain, bindings]
    simp
  rw [Value.lookup, found]

theorem Binds.lookup_outer {other : String} (binds : s.Binds name v outer env)
    (plain : isReserved other = false) (ne : other ≠ name) :
    env.lookup s.frame other = outer.lookup s.frame other := by
  obtain ⟨id, rfl, -, bindings, -⟩ := binds
  have missed : frameValue? s.frame id other = none := by
    have apart : (other == name) = false := by simpa using ne
    rw [frameValue?_plain plain, bindings, List.lookup_cons, apart, List.lookup_nil]
  rw [Value.lookup, missed]

/-- An attribute of an environment that has nothing of its own under the name is what a look-up finds. -/
theorem getAttribute_lookup (id : Nat) (ordinary : Ordinary name)
    (free : s.given.lookup (.environment id, name) = none) :
    getAttribute (.environment id outer) name s =
      (Run.ofExcept (s.lookup name (.environment id outer)) >>= marked) s := by
  have unowned : s.attribute? (.environment id outer) name = none := by
    rw [attribute?, ordinary.unowned, given?]
    change (s.given.lookup (.environment id, name)).or none = none
    rw [free, Option.or_none]
  have asked : getAttribute (.environment id outer) name s = missing (.environment id outer) name s := by
    have read : (get : Run Store) s = .ok s s := rfl
    unfold getAttribute
    rw [bind_of_ok read, unowned]
  have looked : missing (.environment id outer) name = Run.lookup (.environment id outer) name := by
    rw [missing, ordinary.visible, if_neg Bool.false_ne_true]
  have value : Run.lookup (.environment id outer) name s =
      (Run.ofExcept (s.lookup name (.environment id outer)) >>= fun v => do
        if name = "__dict__" then modify (·.share v)
        marked v) s := rfl
  rw [asked, looked, value]
  simp only [if_neg (ne_dict_of_plain ordinary.plain)]

/-- An attribute of an environment is what a look-up finds, with a mark of its own. -/
theorem getAttribute_environment_eq (id : Nat) (ordinary : Ordinary name)
    (free : s.given.lookup (.environment id, name) = none)
    (found : (Value.environment id outer).lookup s.frame name = .ok v) :
    getAttribute (.environment id outer) name s = marked v s := by
  have looked : s.lookup name (.environment id outer) = .ok v := found
  rw [getAttribute_lookup id ordinary free, looked]
  rfl

theorem getAttribute_environment (id : Nat) (ordinary : Ordinary name) (inert : v.Inert)
    (free : s.given.lookup (.environment id, name) = none)
    (found : (Value.environment id outer).lookup s.frame name = .ok v) :
    getAttribute (.environment id outer) name s = .ok v s := by
  rw [getAttribute_environment_eq id ordinary free found, inert.marked]
  rfl

theorem Binds.attribute_eq (binds : s.Binds name v outer env) (ordinary : Ordinary name) :
    getAttribute env name s = marked v s := by
  have found := binds.lookup ordinary.plain
  obtain ⟨id, rfl, -, -, given⟩ := binds
  exact getAttribute_environment_eq id ordinary (given name) found

theorem Binds.attribute (binds : s.Binds name v outer env) (ordinary : Ordinary name) (inert : v.Inert) :
    getAttribute env name s = .ok v s := by
  have found := binds.lookup ordinary.plain
  obtain ⟨id, rfl, -, -, given⟩ := binds
  exact getAttribute_environment id ordinary inert (given name) found

theorem Binds.attribute_outer {other : String} {w : Value} (binds : s.Binds name v outer env)
    (ordinary : Ordinary other) (ne : other ≠ name) (inert : w.Inert)
    (found : outer.lookup s.frame other = .ok w) : getAttribute env other s = .ok w s := by
  rw [← binds.lookup_outer ordinary.plain ne] at found
  obtain ⟨id, rfl, -, -, given⟩ := binds
  exact getAttribute_environment id ordinary inert (given other) found

/-! Procedures of which nothing was recorded. -/

/-- The code of a procedure as it is made. -/
def code (body : Value) (list : Nat) (params : List String) : List (Value × Value) :=
  [(.str "body", body), (.str "parameters", .list list (params.map .str))]

/-- A procedure whose code is what it was made with. -/
def Made (s : Store) (params : List String) (body env proc : Value) : Prop :=
  ∃ mark dict list, proc = .procedure mark (.dict dict (code body list params)) env ∧
    0 < list ∧ list < s.nextMark ∧ dict < s.nextMark ∧
    s.contents.lookup list = none ∧ s.table? dict = none

variable {params : List String} {body proc : Value}

theorem Made.later (made : s.Made params body env proc) (quiet : Quiet s t) : t.Made params body env proc := by
  obtain ⟨mark, dict, list, rfl, positive, known, known', contents, table⟩ := made
  refine ⟨mark, dict, list, rfl, positive, known.trans_le quiet.marks, known'.trans_le quiet.marks, ?_,
    table?_later quiet table⟩
  rw [quiet.contents list known, contents]

theorem Made.inert (made : s.Made params body env proc) : proc.Inert := by
  obtain ⟨mark, dict, list, rfl, -⟩ := made
  exact Value.inert_procedure _ _ _

end Store

namespace Calculus

variable {s : Store} {dict list : Nat} {body : Value} {params : List String}

theorem head_code (nothing : s.table? dict = none) (entries : List (Value × Value)) :
    s.head (.dict dict entries) = .dict dict entries := by
  rw [Store.head, nothing, Option.getD_none]

theorem item_parameters (nothing : s.table? dict = none) (positive : 0 < list) :
    Run.item (.dict dict (code body list params)) (.str "parameters") s =
      .ok (.list list (params.map .str)) s := by
  change (Run.ofExcept ((s.head (.dict dict (code body list params))).itemAt s.frame (.str "parameters")) >>=
    fun v => marked v) s = _
  rw [head_code nothing]
  cases list with
  | zero => omega
  | succ list => rfl

theorem item_body (nothing : s.table? dict = none) (marked : marked body = pure body) :
    Run.item (.dict dict (code body list params)) (.str "body") s = .ok body s := by
  change (Run.ofExcept ((s.head (.dict dict (code body list params))).itemAt s.frame (.str "body")) >>=
    fun v => Run.marked v) s = _
  rw [head_code nothing]
  change Run.marked body s = _
  rw [marked]
  rfl

theorem head_list (nothing : s.contents.lookup list = none) (items : List Value) :
    s.head (.list list items) = .list list items := by
  rw [Store.head, Store.items, nothing, Option.getD_none]

theorem truth_list (nothing : s.contents.lookup list = none) (items : List Value) :
    Run.truth (.list list items) s = .ok (!items.isEmpty) s := by
  rw [truth_apply, head_list nothing, Value.truth]

/-- A parameter list with no two names in it makes a procedure. -/
theorem newProcedure_eq (env : Value) (nothing : s.table? dict = none) (positive : 0 < list)
    (unchanged : s.contents.lookup list = none) (single : params.length ≤ 1) :
    newProcedure (.dict dict (code body list params)) env s =
      .ok (.procedure s.nextMark (.dict dict (code body list params)) env)
        { s with nextMark := s.nextMark + 1 } := by
  unfold newProcedure
  rw [bind_of_ok (item_parameters nothing positive), bind_of_ok (members_list (head_list unchanged _))]
  match params, single with
  | [], _ =>
      rw [bind_of_ok (show (forIn _ _ _ : Run PUnit) s = .ok ⟨⟩ s from rfl)]
      rw [bind_of_ok (length_list (head_list unchanged _))]
      rfl
  | [name], _ =>
      rw [bind_of_ok (show (forIn _ _ _ : Run PUnit) s = .ok ⟨⟩ s from rfl)]
      rw [bind_of_ok (length_list (head_list unchanged _))]
      rfl

/-- A procedure of a list of parameters of which nothing was recorded. -/
theorem procedure_gives (env : Value) (new : s.Fresh) (positive : 0 < list) (known : list < s.nextMark)
    (unchanged : s.contents.lookup list = none) (single : params.length ≤ 1) :
    Gives (Run.dict (code body list params) >>= fun code => newProcedure code env) s fun v t =>
      t.Made params body env v := by
  have made : newProcedure (.dict s.nextMark (code body list params)) env { s with nextMark := s.nextMark + 1 } = _ :=
    newProcedure_eq env (new.table? (Nat.le_refl _)) positive unchanged single
  refine .of_run made (Quiet.told s 2 s.journal s.deeds) ?_
  exact ⟨_, s.nextMark, list, rfl, positive, by simp only; omega, by simp only; omega, unchanged,
    new.table? (Nat.le_refl _)⟩

theorem list_gives (s : Store) (items : List Value) :
    Gives (Run.list items) s fun v t => v = .list s.nextMark items ∧ s.nextMark < t.nextMark ∧
      t.contents = s.contents :=
  .of_run rfl (Quiet.told s 1 s.journal s.deeds) ⟨rfl, Nat.lt_succ_self _, rfl⟩

/-- Making a procedure without parameters lists them anew. -/
theorem lambda_nil_eq (body env : Value) (new : s.Fresh) (unchanged : s.contents.lookup list = none) :
    lambda body (.list list []) env s =
      .ok (.procedure (s.nextMark + 2) (.dict (s.nextMark + 1) (code body s.nextMark [])) env) (s.skip 3) := by
  have nothing : (s.skip 2).table? (s.nextMark + 1) = none := new.table? (Nat.le_add_right _ _)
  have empty : (s.skip 2).contents.lookup s.nextMark = none := new.contents _ (Nat.le_refl _)
  unfold lambda
  rw [bind_of_ok (truth_list unchanged _)]
  have made : newProcedure (.dict (s.nextMark + 1) (code body s.nextMark [])) env (s.skip 2) =
      .ok (.procedure (s.skip 2).nextMark (.dict (s.nextMark + 1) (code body s.nextMark [])) env)
        { s.skip 2 with nextMark := (s.skip 2).nextMark + 1 } :=
    newProcedure_eq env nothing new.positive empty (Nat.zero_le 1)
  exact made

/-- Making a procedure of one parameter keeps the list of it. -/
theorem lambda_one_eq (body env : Value) (new : s.Fresh) (positive : 0 < list)
    (unchanged : s.contents.lookup list = none) (name : String) :
    lambda body (.list list [.str name]) env s =
      .ok (.procedure (s.nextMark + 1) (.dict s.nextMark (code body list [name])) env) (s.skip 2) := by
  have nothing : (s.skip 1).table? s.nextMark = none := new.table? (Nat.le_refl _)
  unfold lambda
  rw [bind_of_ok (truth_list unchanged _)]
  have made : newProcedure (.dict s.nextMark (code body list [name])) env (s.skip 1) = _ :=
    newProcedure_eq env nothing positive unchanged (Nat.le_refl 1)
  exact made

theorem lambda_gives (body env : Value) (new : s.Fresh) (positive : 0 < list) (known : list < s.nextMark)
    (unchanged : s.contents.lookup list = none) (single : params.length ≤ 1) :
    Gives (lambda body (.list list (params.map .str)) env) s fun v t => t.Made params body env v := by
  unfold lambda
  have decided : Yields (Run.truth (.list list (params.map .str))) s (!(params.map Value.str).isEmpty) :=
    .same (truth_list unchanged (params.map Value.str)) rfl
  refine decided.bind ?_
  rintro truth t quiet rfl
  cases params with
  | nil =>
      refine (list_gives t []).bind ?_
      rintro v u later ⟨rfl, marks, contents⟩
      have unchanged' : u.contents.lookup t.nextMark = none := by
        rw [contents]
        exact (quiet.fresh new).contents _ (Nat.le_refl _)
      change Gives (Run.dict (code body t.nextMark []) >>= fun code => newProcedure code env) u _
      exact procedure_gives env (later.fresh (quiet.fresh new)) (quiet.fresh new).positive marks unchanged' single
  | cons name rest =>
      have unchanged' : t.contents.lookup list = none := by rw [quiet.contents list known, unchanged]
      change Gives (Run.dict (code body list (name :: rest)) >>= fun code => newProcedure code env) t _
      exact procedure_gives env (quiet.fresh new) positive (known.trans_le quiet.marks) unchanged' single

end Calculus

section

variable {s : Store} {k : Machine} {scope : Scope}

theorem Term.evalAll_gives {a : Term} {rest : List Term} {A : Value → Store → Prop}
    {P : List Value → Store → Prop} (first : Gives (a.eval k scope) s A)
    (others : ∀ v t, Quiet s t → A v t → Gives (evalAll k rest scope) t fun vs u => P (v :: vs) u) :
    Gives (evalAll k (a :: rest) scope) s P := by
  rw [evalAll]
  refine first.bind fun v t quiet holds => ?_
  exact (others v t quiet holds).bind fun vs u _ held => .pure held

theorem Term.names_yield (params : List String) :
    Yields (evalAll k (params.map fun p => lit (.str p)) scope) s (params.map .str) := by
  induction params generalizing s with
  | nil => exact .same rfl rfl
  | cons name rest ih =>
      refine evalAll_gives (A := fun v _ => v = .str name) (.same rfl rfl) ?_
      rintro v t - rfl
      exact ih.mono fun vs u _ same => by rw [same, List.map_cons]

/-- Terms one after the other, where it is known what they come to. -/
theorem Term.evalAll_cons {a : Term} {rest : List Term} {v : Value} {vs : List Value} {u w : Store}
    (first : a.eval k scope s = .ok v u) (others : evalAll k rest scope u = .ok vs w) :
    evalAll k (a :: rest) scope s = .ok (v :: vs) w := by
  rw [evalAll, Form.following, bind_of_ok first, bind_of_ok others]
  rfl

/-- The texts that name parameters. -/
theorem Term.evalAll_names (params : List String) (u : Store) :
    evalAll k (params.map fun p => lit (.str p)) scope u = .ok (params.map .str) u := by
  induction params with
  | nil => rfl
  | cons name rest ih => exact evalAll_cons rfl ih

/-- What a procedure is made of. -/
theorem Term.evalAll_procedure (header : Header) (body : Term) (params : List String) {env : String}
    {closed : Value} (bound : scope.lookup env = some closed) (u : Store) :
    evalAll k [lam header body, list (params.map fun p => lit (.str p)), var env] scope u =
      .ok [.closure u.nextMark header body scope, .list (u.nextMark + 1) (params.map .str), closed] (u.skip 2) := by
  have listed : (list (params.map fun p => lit (.str p))).eval k scope (u.skip 1) =
      .ok (.list (u.nextMark + 1) (params.map .str)) (u.skip 2) := by
    rw [Term.eval, bind_of_ok (evalAll_names params _)]
    rfl
  have found : (var env).eval k scope (u.skip 2) = .ok closed (u.skip 2) := by
    rw [eval_var, Form.resolve, bound]
    rfl
  exact evalAll_cons rfl (evalAll_cons listed (evalAll_cons found rfl))

/-- What is known of a parameter list that was just made. -/
def Store.Listed (s : Store) (params : List String) (v : Value) : Prop :=
  ∃ list, v = .list list (params.map .str) ∧ 0 < list ∧ list < s.nextMark ∧ s.contents.lookup list = none

theorem Store.Listed.later {t : Store} {params : List String} {v : Value} (listed : s.Listed params v)
    (quiet : Quiet s t) : t.Listed params v := by
  obtain ⟨list, rfl, positive, known, unchanged⟩ := listed
  exact ⟨list, rfl, positive, known.trans_le quiet.marks, by rw [quiet.contents list known, unchanged]⟩

theorem Term.params_gives (new : s.Fresh) (params : List String) :
    Gives ((list (params.map fun p => lit (.str p))).eval k scope) s fun v t => t.Listed params v := by
  rw [eval]
  refine (names_yield params).bind ?_
  rintro vs t quiet rfl
  refine (Calculus.list_gives t _).mono ?_
  rintro v u - ⟨rfl, marks, contents⟩
  have new' := quiet.fresh new
  exact ⟨_, rfl, new'.positive, marks, by rw [contents]; exact new'.contents _ (Nat.le_refl _)⟩

theorem lambda_call_gives {body params env : Value} {names : List String} (new : s.Fresh)
    (affords : Affords 1 k s) (listed : s.Listed names params) (single : names.length ≤ 1)
    {args : List Value}
    (passed : ∀ k', Machine.callValue k' (.builtin .lambda) args [] = Calculus.lambda body params env) :
    Gives (k.call (.builtin .lambda) args []) s fun v t => t.Made names body env v := by
  refine call_gives affords (fun _ _ _ made => made) fun k' _ => ?_
  obtain ⟨list, rfl, positive, known, unchanged⟩ := listed
  rw [passed]
  exact Calculus.lambda_gives body env (new.atDepth _) positive known unchanged single

/-- A procedure that a term makes of a function, its parameters and an environment. -/
theorem Term.procedure_gives {params : List String} {env : Term} {closed : Value} (header : Header)
    (body : Term) (new : s.Fresh) (affords : Affords 1 k s) (single : params.length ≤ 1)
    (given : ∀ t, Quiet s t → Yields (env.eval k scope) t closed) :
    Gives ((Prelude.procedure (lam header body) params env).eval k scope) s fun v t =>
      ∃ mark, t.Made params (.closure mark header body scope) closed v := by
  have args : Gives (evalAll k [lam header body, list (params.map fun p => lit (.str p)), env] scope) s
      fun vs t => ∃ mark list, vs = [.closure mark header body scope, list, closed] ∧ t.Listed params list := by
    refine evalAll_gives (lam_gives header body) ?_
    rintro v t quiet ⟨mark, rfl⟩
    refine evalAll_gives (params_gives (quiet.fresh new) params) ?_
    intro v u later listed
    refine evalAll_gives (given u (quiet.trans later)) ?_
    rintro v w last rfl
    exact .same rfl ⟨mark, _, rfl, listed.later last⟩
  rw [Prelude.procedure, app, eval]
  refine args.bind (f := fun args => k.call (.builtin .lambda) args []) ?_
  rintro vs t quiet ⟨mark, list, rfl, listed⟩
  refine (lambda_call_gives (quiet.fresh new) (affords.later quiet) listed single fun _ => rfl).mono ?_
  intro v u _ made
  exact ⟨mark, made⟩

/-- A procedure of the outermost environment. -/
theorem Term.outermost_procedure_gives {params : List String} (header : Header) (body : Term)
    (new : s.Fresh) (affords : Affords 1 k s) (single : params.length ≤ 1) :
    Gives ((app (prim .lambda) [lam header body, list (params.map fun p => lit (.str p))]).eval k scope) s
      fun v t => ∃ mark, t.Made params (.closure mark header body scope) outermost v := by
  have args : Gives (evalAll k [lam header body, list (params.map fun p => lit (.str p))] scope) s
      fun vs t => ∃ mark list, vs = [.closure mark header body scope, list] ∧ t.Listed params list := by
    refine evalAll_gives (lam_gives header body) ?_
    rintro v t quiet ⟨mark, rfl⟩
    refine evalAll_gives (params_gives (quiet.fresh new) params) ?_
    intro v u later listed
    exact .same rfl ⟨mark, _, rfl, listed⟩
  rw [app, eval]
  refine args.bind (f := fun args => k.call (.builtin .lambda) args []) ?_
  rintro vs t quiet ⟨mark, list, rfl, listed⟩
  refine (lambda_call_gives (quiet.fresh new) (affords.later quiet) listed single fun _ => rfl).mono ?_
  intro v u _ made
  exact ⟨mark, made⟩

end

/-! Applying procedures. -/

namespace Store

variable {s t : Store} {name : String} {v outer : Value}

/-- The store with an environment of a call, which nothing is bound in yet. -/
def opened (s : Store) : Store :=
  s.push { card := { path := .str "APPLY.<locals>.<lambda>", home := .str "schemulator" }, mark := s.nextMark }

theorem opened_frame (s : Store) : s.opened.frame s.frames.size =
    { card := { path := .str "APPLY.<locals>.<lambda>", home := .str "schemulator" }, mark := s.nextMark } := by
  change frameAt (s.frames.push _) s.frames.size = _
  rw [frameAt_push, if_pos rfl]

theorem Quiet.opened (s : Store) : Quiet s s.opened where
  rest := rfl
  marks := Nat.le_succ _
  size := by simp [Store.opened, Store.push]
  frames id known := by
    change frameAt (s.frames.push _) id = _
    rw [frameAt_push, if_neg (by omega)]
    rfl
  contents _ _ := rfl
  tallies _ _ := rfl
  entered _ _ := rfl
  fresh new :=
    { positive := Nat.succ_pos _
      opened := by simp [Store.opened, Store.push]
      contents := fun mark above => new.contents mark (Nat.le_of_succ_le above)
      tables := fun mark above => new.tables mark (Nat.le_of_succ_le above)
      namespaces := fun mark above => new.namespaces mark (Nat.le_of_succ_le above)
      entered := fun mark above => new.entered mark (Nat.le_of_succ_le above)
      given := fun id name above => new.given id name (by
        simp only [Store.opened, Store.push, Array.size_push] at above
        omega) }

/-- A frame may be changed by whoever made it. -/
theorem Quiet.framed (quiet : Quiet s t) {id : Nat} (new : s.frames.size ≤ id) (frame : Frame)
    (journal : List Event) : Quiet s { t with frames := t.frames.setIfInBounds id frame, journal } := by
  constructor
  · have here := quiet.rest
    exact congrArg (fun t' : Store => { t' with frames := t.frames.setIfInBounds id frame, journal }) here
  · exact quiet.marks
  · rw [Array.size_setIfInBounds]
    exact quiet.size
  · intro other known
    have apart : other ≠ id := by omega
    have kept : frameAt (t.frames.setIfInBounds id frame) other = frameAt t.frames other := by
      rw [frameAt_set, if_neg fun both => apart both.1]
    exact kept.trans (quiet.frames other known)
  · exact quiet.contents
  · exact quiet.tallies
  · exact quiet.entered
  · intro new
    have done := quiet.fresh new
    have opened : 0 < (t.frames.setIfInBounds id frame).size := by
      rw [Array.size_setIfInBounds]
      exact done.opened
    have given : ∀ id' name, (t.frames.setIfInBounds id frame).size ≤ id' →
        t.given.lookup (.environment id', name) = none := by
      rw [Array.size_setIfInBounds]
      exact done.given
    exact ⟨done.positive, opened, done.contents, done.tables, done.namespaces, done.entered, given⟩

/-- The one binding of a new environment changes its frame only. -/
theorem bind_opened_eq (quiet : Quiet s.opened t) (new : s.Fresh) (plain : isReserved name = false) (v : Value) :
    ∃ frame, frame.bindings = [(name, v)] ∧ frame.mark = s.nextMark ∧ ∃ journal,
      writing .call (Run.bind s.frames.size name v) t =
        .ok () { t with frames := t.frames.setIfInBounds s.frames.size frame, journal } := by
  have known : s.frames.size < s.opened.frames.size := by simp [opened, push]
  have here : t.frame s.frames.size = s.opened.frame s.frames.size := quiet.frames _ known
  rw [s.opened_frame] at here
  obtain ⟨frame, set, bindings, mark⟩ : ∃ frame, (t.frame s.frames.size).set name v = .ok frame ∧
      frame.bindings = [(name, v)] ∧ frame.mark = s.nextMark := by
    rw [here]
    unfold Frame.set
    rw [if_neg (ne_dict_of_plain plain), Card.set?_eq_none plain]
    exact ⟨_, rfl, rfl, rfl⟩
  have alone : t.namespaces.lookup frame.mark = none := by
    rw [quiet.namespaces, mark]
    exact new.namespaces _ (Nat.le_refl _)
  have there : (if name = "__dict__" then do
        let v ← Run.head v
        let frame ← Run.ofExcept (((← get).frame s.frames.size).set name v)
        modify fun t => (t.replaceNames s.frames.size frame).note (.overwritten s.frames.size)
      else do
        let frame ← Run.ofExcept (((← get).frame s.frames.size).set name v)
        modify fun t => t.change s.frames.size frame (.bound t.writer s.frames.size name v) : Run Unit)
      { t with writer := .call } =
        .ok () ({ t with writer := .call }.change s.frames.size frame (.bound .call s.frames.size name v)) := by
    rw [if_neg (ne_dict_of_plain plain)]
    change (Run.ofExcept ((t.frame s.frames.size).set name v) >>= fun frame =>
      modify fun t => t.change s.frames.size frame (.bound t.writer s.frames.size name v)) _ = _
    rw [set]
    rfl
  refine ⟨frame, bindings, mark, ?_⟩
  unfold writing
  rw [Run.bind, there]
  simp only [Store.change, setFrame, alone]
  exact ⟨_, rfl⟩

/-- The one binding of a new environment. -/
theorem bind_opened (quiet : Quiet s.opened t) (new : s.Fresh) (plain : isReserved name = false) :
    ∃ u, writing .call (Run.bind s.frames.size name v) t = .ok () u ∧ Quiet s u ∧
      ∀ outer, u.Binds name v outer (.environment s.frames.size outer) := by
  have known : s.frames.size < t.frames.size :=
    (show s.frames.size < s.opened.frames.size by simp [opened, push]).trans_le quiet.size
  obtain ⟨frame, bindings, -, journal, run⟩ := bind_opened_eq quiet new plain v
  have changed := ((Quiet.opened s).trans quiet).framed (Nat.le_refl _) frame journal
  refine ⟨_, run, changed, fun outer => ⟨s.frames.size, rfl, ?_, ?_, fun other => ?_⟩⟩
  · rw [Array.size_setIfInBounds]
    exact known
  · change (frameAt (t.frames.setIfInBounds _ _) _).bindings = _
    rw [frameAt_set, if_pos ⟨rfl, known⟩, bindings]
  · rw [changed.given]
    exact new.given _ _ (Nat.le_refl _)

end Store

namespace Calculus

variable {s : Store} {k : Machine} {levels : Nat} {body closed proc caller : Value} {list : Nat}
  {P : Value → Store → Prop}

/-- A procedure of one parameter binds its argument in a new environment and runs its body there. -/
theorem apply_one_code (k : Machine) (caller arg : Value) {name : String} {mark dict params : Nat}
    (positive : 0 < params) (nothing : s.contents.lookup params = none) (table : s.table? dict = none)
    (unchanged : s.contents.lookup list = none) :
    apply k (.procedure mark (.dict dict (code body params [name])) closed) (.list list [arg]) caller s =
      (bindAll k (.environment s.frames.size closed) caller [.str name] [arg] >>= fun _ =>
        Run.item (.dict dict (code body params [name])) (.str "body") >>= fun body =>
          k.app body [.environment s.frames.size closed]) s.opened := by
  have opens : callFrame (.list params [.str name]) closed s =
      .ok (.environment s.frames.size closed) s.opened := by
    unfold callFrame
    rw [bind_of_ok (truth_list nothing _)]
    rfl
  have named : members (.list params [.str name]) s.opened = .ok [.str name] s.opened :=
    members_list (head_list nothing _)
  have passed : members (.list list [arg]) s.opened = .ok [arg] s.opened :=
    members_list (head_list unchanged _)
  unfold apply
  dsimp only
  rw [bind_of_ok (item_parameters table positive), bind_of_ok (length_list (head_list nothing _)),
    bind_of_ok (length_list (head_list unchanged _)), if_neg (fun ne => ne rfl)]
  rw [List.map_cons, List.map_nil, bind_of_ok opens, bind_of_ok named, bind_of_ok passed]

theorem apply_one_binding (k : Machine) (caller : Value) {name : String} (arg : Value) (made : s.Made [name] body closed proc)
    (unchanged : s.contents.lookup list = none) : ∃ dict params, s.table? dict = none ∧
      apply k proc (.list list [arg]) caller s =
        (bindAll k (.environment s.frames.size closed) caller [.str name] [arg] >>= fun _ =>
          Run.item (.dict dict (code body params [name])) (.str "body") >>= fun body =>
            k.app body [.environment s.frames.size closed]) s.opened := by
  obtain ⟨mark, dict, params, rfl, positive, -, -, nothing, table⟩ := made
  exact ⟨dict, params, table, apply_one_code k caller arg positive nothing table unchanged⟩

/-- The binding of the only argument. -/
theorem bindAll_one (target : Nat) (closed caller arg : Value) (name : String) :
    bindAll k (.environment target closed) caller [.str name] [arg] =
      (k.evaluate arg caller >>= fun v => writing .call (Run.bind target name v) >>= fun _ => pure ()) := by
  rw [bindAll]
  rfl

/-- The body runs where the parameter is bound to the argument, if that stands for itself where it comes
from. -/
theorem apply_one_eq {name : String} {arg : Value} (made : s.Made [name] body closed proc)
    (plain : isReserved name = false) (still : marked body = pure body) (new : s.Fresh)
    (unchanged : s.contents.lookup list = none) {t : Store} (ran : k.evaluate arg caller s.opened = .ok arg t)
    (quiet : Quiet s.opened t) : ∃ env u, Quiet s u ∧ u.Binds name arg closed env ∧
      apply k proc (.list list [arg]) caller s = k.app body [env] u := by
  obtain ⟨dict, params, table, whole⟩ := apply_one_binding k caller arg made unchanged
  obtain ⟨u, bound, quiet', binds⟩ := bind_opened (v := arg) quiet new plain
  have all : bindAll k (.environment s.frames.size closed) caller [.str name] [arg] s.opened = .ok () u := by
    rw [bindAll_one, bind_of_ok ran, bind_of_ok bound]
    rfl
  refine ⟨_, u, quiet', binds closed, whole.trans ?_⟩
  rw [bind_of_ok all, bind_of_ok (item_body (table?_later quiet' table) still)]

/-- Where the argument has no value, the body does not run. -/
theorem apply_one_error {name : String} {arg : Value} (made : s.Made [name] body closed proc)
    (unchanged : s.contents.lookup list = none) {e : Stop} {t : Store}
    (ran : k.evaluate arg caller s.opened = .error e t) :
    apply k proc (.list list [arg]) caller s = .error e t := by
  obtain ⟨dict, params, -, whole⟩ := apply_one_binding k caller arg made unchanged
  rw [whole, bindAll_one]
  exact bind_of_error (bind_of_error ran)

theorem apply_one_gives {name : String} {arg : Value} (made : s.Made [name] body closed proc)
    (plain : isReserved name = false) (inert : arg.Inert) (still : marked body = pure body) (new : s.Fresh)
    (unchanged : s.contents.lookup list = none) (affords : Affords 1 k s)
    (run : ∀ env t, Quiet s t → t.Binds name arg closed env → Gives (k.app body [env]) t P) :
    Gives (apply k proc (.list list [arg]) caller) s P := by
  have evaluated : Yields (k.evaluate arg caller) s.opened arg := by
    refine evaluate_gives (affords.later (Quiet.opened s)) (steady_value _) fun k' _ => ?_
    rw [inert.evaluated]
    exact .pure rfl
  obtain ⟨_, t, ran, quiet, rfl⟩ := evaluated
  obtain ⟨env, u, quiet', binds, whole⟩ := apply_one_eq made plain still new unchanged ran quiet
  obtain ⟨w, x, result, quiet'', holds⟩ := run env u quiet' binds
  exact ⟨w, x, whole.trans result, quiet'.trans quiet'', holds⟩

/-- A procedure without parameters runs its body in the environment that it closes over. -/
theorem apply_none_eq (made : s.Made [] body closed proc) (still : marked body = pure body)
    (unchanged : s.contents.lookup list = none) :
    apply k proc (.list list []) caller s = k.app body [closed] s := by
  obtain ⟨mark, dict, params, rfl, positive, known, known', nothing, table⟩ := made
  have stays : callFrame (.list params []) closed s = .ok closed s := by
    unfold callFrame
    rw [bind_of_ok (truth_list nothing _)]
    rfl
  have named : members (.list params []) s = .ok [] s := members_list (head_list nothing _)
  have passed : members (.list list []) s = .ok [] s := members_list (head_list unchanged _)
  have all : bindAll k closed caller [] [] s = .ok () s := rfl
  unfold apply
  dsimp only
  rw [bind_of_ok (item_parameters table positive), bind_of_ok (length_list (head_list nothing _)),
    bind_of_ok (length_list (head_list unchanged _)), if_neg (fun ne => ne rfl)]
  rw [List.map_nil, bind_of_ok stays, bind_of_ok named, bind_of_ok passed, bind_of_ok all,
    bind_of_ok (item_body table still)]

theorem apply_none_gives (made : s.Made [] body closed proc) (still : marked body = pure body)
    (unchanged : s.contents.lookup list = none) (run : Gives (k.app body [closed]) s P) :
    Gives (apply k proc (.list list []) caller) s P := by
  obtain ⟨w, x, result, quiet, holds⟩ := run
  exact ⟨w, x, (apply_none_eq made still unchanged).trans result, quiet, holds⟩

end Calculus

/-! Calling procedures. -/

namespace Store

variable {s t : Store}

namespace Beneath

variable {name : String} {params : List String} {v outer env body proc : Value} (beneath : Beneath s t)
include beneath

theorem binds (binds : s.Binds name v outer env) : t.Binds name v outer env :=
  Binds.later (s := atDepth 0 s) (t := atDepth 0 t) binds beneath

theorem made (made : s.Made params body env proc) : t.Made params body env proc :=
  Made.later (s := atDepth 0 s) (t := atDepth 0 t) made beneath

end Beneath

end Store

section

variable {s : Store} {k : Machine} {levels mark : Nat} {name p : String} {arg closed proc : Value}
  {header : Header} {term : Term} {scope : Scope} {P : Value → Store → Prop}

/-- Calling a procedure of one parameter runs its body two levels deeper. -/
theorem procedure_call_gives (steady : Steady P) (made : s.Made [name] (.closure mark header term scope) closed proc)
    (plain : isReserved name = false) (inert : arg.Inert) (new : s.Fresh)
    (binds : ∀ env, header.bind [env] [] = .ok [(p, env)]) (affords : Affords (levels + 2) k s)
    (run : ∀ k' env t, s.Beneath t → Affords levels k' t → t.Binds name arg closed env →
      Gives (term.eval k' ((p, env) :: scope)) t P) :
    Gives (k.call proc [arg] []) s P := by
  refine call_gives affords steady fun k' inner => ?_
  have called : Machine.callValue k' proc [arg] [] =
      Run.list [arg] >>= fun args => Calculus.apply k' proc args closed := by
    obtain ⟨_, _, _, rfl, -⟩ := made
    rfl
  rw [called]
  refine (Calculus.list_gives s.inside [arg]).bind ?_
  rintro v t quiet ⟨rfl, -, contents⟩
  have beneath := (Beneath.inside s).trans quiet.beneath
  have unchanged : t.contents.lookup s.inside.nextMark = none := by
    rw [contents]
    exact new.contents _ (Nat.le_refl _)
  refine Calculus.apply_one_gives (beneath.made made) plain inert rfl (beneath.new new) unchanged
    ((inner.later quiet).less (by omega)) fun env u later bound => ?_
  refine call_gives (inner.later (quiet.trans later)) steady fun k'' inner' => ?_
  refine closure_gives (binds env) ?_
  exact run k'' env u.inside ((beneath.trans later.beneath).trans (Beneath.inside u)) inner' bound

/-- Calling a procedure without parameters runs its body two levels deeper. -/
theorem thunk_call_gives (steady : Steady P) (made : s.Made [] (.closure mark header term scope) closed proc)
    (new : s.Fresh) (binds : ∀ env, header.bind [env] [] = .ok [(p, env)])
    (affords : Affords (levels + 2) k s)
    (run : ∀ k' t, s.Beneath t → Affords levels k' t → Gives (term.eval k' ((p, closed) :: scope)) t P) :
    Gives (k.call proc [] []) s P := by
  refine call_gives affords steady fun k' inner => ?_
  have called : Machine.callValue k' proc [] [] =
      Run.list [] >>= fun args => Calculus.apply k' proc args closed := by
    obtain ⟨_, _, _, rfl, -⟩ := made
    rfl
  rw [called]
  refine (Calculus.list_gives s.inside []).bind ?_
  rintro v t quiet ⟨rfl, -, contents⟩
  have beneath := (Beneath.inside s).trans quiet.beneath
  have unchanged : t.contents.lookup s.inside.nextMark = none := by
    rw [contents]
    exact new.contents _ (Nat.le_refl _)
  refine Calculus.apply_none_gives (beneath.made made) rfl unchanged ?_
  refine call_gives (inner.later quiet) steady fun k'' inner' => ?_
  refine closure_gives (binds closed) ?_
  exact run k'' t.inside (beneath.trans (Beneath.inside t)) inner'

end

end Knot
