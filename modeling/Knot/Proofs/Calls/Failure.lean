import Knot.Proofs.Calls.Beside
import Knot.Proofs.Calls.Wording

/-!
Calls that fail. A call that is refused has evaluated nothing; one that fails at an argument has run no
body, and what it had bound before shows nowhere.
-/

namespace Knot

open Run Renaming Store

variable {s t u : Store} {proc args caller : Value} {shown : List Value}

namespace Calculus

/-- What a call does before it binds its arguments: the environment for its body, its parameters and its
arguments. -/
def prepare (proc args : Value) : Run (Value × List Value × List Value) := do
  match proc with
  | .procedure _ code closed =>
      let params ← item code (.str "parameters")
      let expected ← length params
      let given ← length args
      if expected ≠ given then fault (← wrongCount proc params args expected given)
      else
        let env ← callFrame params closed
        return (env, ← members params, ← members args)
  | v => fault (.contract (.notProcedure (← Run.shown v) v.typeName))

theorem apply_eq_prepare (k : Machine) (mark : Nat) (code closed args caller : Value) :
    Calculus.apply k (.procedure mark code closed) args caller =
      (prepare (.procedure mark code closed) args >>= fun ready =>
        bindAll k ready.1 caller ready.2.1 ready.2.2 >>= fun _ =>
          item code (.str "body") >>= fun body => k.app body [ready.1]) := by
  simp only [Calculus.apply, prepare, bind_assoc]
  refine bind_congr fun params => bind_congr fun expected => bind_congr fun given => ?_
  split
  · simp only [bind_assoc]
    rfl
  · simp only [bind_assoc, pure_bind]

/-! Refusals. -/

/-- What is called is no procedure, or has another number of parameters than there are arguments; with what
the refusal shows, and the store after the parameters were read. -/
inductive Unfit (t : Store) (args : Value) : Value → List Value → Store → Prop
  | notProcedure {v : Value} : (∀ mark code closed, v ≠ .procedure mark code closed) → Unfit t args v [v] t
  | wrongCount {mark expected given : Nat} {code closed params : Value} {u : Store} :
      item code (.str "parameters") t = .ok params u → length params u = .ok expected u →
      length args u = .ok given u → expected ≠ given →
      Unfit t args (.procedure mark code closed) [args, .procedure mark code closed, params] u

/-- What writing a value raises, as it is or for a reader. -/
def Unwritten (u : Store) (v : Value) (f : Fault) : Prop :=
  (u.view v).showWith u.frame = .error f ∨ (u.view v).showPlain u.frame = .error f

/-- The end of a call that is refused: nothing has changed but for marks, and the contract is violated, if
what the message shows can be written. Of legible values, only integers may be too long for that. -/
structure Refused (t : Store) (shown : List Value) (u : Store) (x : EStateM.Result Stop Store Value) : Prop where
  still : ∃ n, u = t.skip n
  raises : ∃ f, x = .error (.fault f) u ∧
    (f.kind = "ContractViolation" ∨ ∃ v ∈ shown, Unwritten u v f) ∧
    ∀ of : Int → Prop, (∀ v ∈ shown, (u.view v).Legible of) →
      f.kind = "ContractViolation" ∨ f = .value .integerTooLong ∧ ∃ i, of i ∧ ¬Written i

/-- A message is written, or what writing it raises is raised. -/
theorem refused_of_worded {f : Fault} {x : EStateM.Result Stop Store Value} (still : ∃ n, u = t.skip n)
    (ends : x = .error (.fault f) u)
    (message : f.kind = "ContractViolation" ∨ ∃ v ∈ shown, Unwritten u v f) : Refused t shown u x := by
  refine ⟨still, f, ends, message, fun of legible => message.imp_right ?_⟩
  rintro ⟨v, member, failed | failed⟩
  · rcases (legible v member).worded.1 with ⟨text, written⟩ | ⟨long, among⟩
    · cases failed.symm.trans written
    · exact ⟨Except.error.inj (failed.symm.trans long), among⟩
  · rcases (legible v member).worded.2 with ⟨text, written⟩ | ⟨long, among⟩
    · cases failed.symm.trans written
    · exact ⟨Except.error.inj (failed.symm.trans long), among⟩

/-- The fault that refuses a number of arguments violates the contract, or is what writing raises. -/
theorem refusal_message (u : Store) (proc params args : Value) (expected given : Nat) :
    (u.refusal proc params args expected given).kind = "ContractViolation" ∨
      ∃ v ∈ [args, proc, params], Unwritten u v (u.refusal proc params args expected given) := by
  unfold Store.refusal
  cases first : (u.view args).showPlain u.frame with
  | error f => exact .inr ⟨args, by simp, .inr first⟩
  | ok _ =>
      cases second : (u.view proc).showPlain u.frame with
      | error f => exact .inr ⟨proc, by simp, .inr second⟩
      | ok _ =>
          cases third : (u.view params).showPlain u.frame with
          | error f => exact .inr ⟨params, by simp, .inr third⟩
          | ok _ => exact .inl rfl

/-- A call that does not fit is refused, whatever machine it runs on: it evaluates and calls nothing. -/
theorem Unfit.refused (unfit : Unfit t args proc shown u) (k : Machine) (caller : Value) :
    Refused t shown u (Calculus.apply k proc args caller t) := by
  cases unfit with
  | notProcedure other =>
      have started : Calculus.apply k proc args caller t =
          (Run.shown proc >>= fun text => fault (.contract (.notProcedure text proc.typeName))) t := by
        cases proc with
        | procedure mark code closed => exact absurd rfl (other mark code closed)
        | _ => rfl
      cases written : (t.view proc).showWith t.frame with
      | ok text =>
          have said : Run.shown proc t = .ok text t := congrArg (Run.ofExcept · t) written
          exact refused_of_worded ⟨0, rfl⟩ (started.trans (bind_of_ok said)) (.inl rfl)
      | error f =>
          have said : Run.shown proc t = .error (.fault f) t := congrArg (Run.ofExcept · t) written
          exact refused_of_worded ⟨0, rfl⟩ (started.trans (bind_of_error said))
            (.inr ⟨proc, List.mem_singleton.mpr rfl, .inl written⟩)
  | wrongCount read expects gets wrong =>
      exact refused_of_worded (item_skips (by decide) read) (apply_refuses k _ _ caller read expects gets wrong)
        (refusal_message u _ _ args _ _)

/-! Arguments that cannot be evaluated or bound. -/

/-- Binds a parameter to the value of its argument, evaluated in the caller's environment. -/
def bindOne (k : Machine) (target caller param arg : Value) : Run Unit := do
  let id ← frameOf target
  let v ← k.evaluate arg caller
  let name ← nameOf param
  writing .call (Run.bind id name v)

theorem bindAll_cons (k : Machine) (target caller param arg : Value) (params args : List Value) :
    bindAll k target caller (param :: params) (arg :: args) =
      (bindOne k target caller param arg >>= fun _ => bindAll k target caller params args) := by
  simp only [bindAll, bindOne, bind_assoc]

theorem bindAll_append (k : Machine) (target caller : Value) {params args : List Value}
    (same : params.length = args.length) (params' args' : List Value) :
    bindAll k target caller (params ++ params') (args ++ args') =
      (bindAll k target caller params args >>= fun _ => bindAll k target caller params' args') := by
  induction params generalizing args with
  | nil =>
      obtain rfl := List.length_eq_zero_iff.mp same.symm
      rfl
  | cons param params ih =>
      cases args with
      | nil => cases same
      | cons arg args =>
          rw [List.cons_append, List.cons_append, bindAll_cons, bindAll_cons, ih (Nat.succ.inj same), bind_assoc]

/-- Binding asks nothing of a machine but to evaluate. -/
theorem bindAll_evaluates (k : Machine) (call : Value → List Value → Named → Run Value) (target caller : Value)
    (params args : List Value) :
    bindAll ⟨call, k.evaluate⟩ target caller params args = bindAll k target caller params args := by
  induction params generalizing args with
  | nil => cases args <;> rfl
  | cons param params ih =>
      cases args with
      | nil => rfl
      | cons arg args =>
          rw [bindAll_cons, bindAll_cons, ih]
          rfl

section

variable {r : Renaming} {n id : Nat} {outer : Value} {a c d : Store} (scopes : r.KeepsScopes)
  (fixed : caller.rename r = caller)
include scopes fixed

/-- A value that a renaming leaves alone is evaluated alike in a store and in an image of it. -/
theorem evaluate_meets {arg : Value} (own : arg.rename r = arg) (beside : Beside r a c) :
    Meets r (Value.rename r) ((Machine.ofFuel n).evaluate arg caller a)
      ((Machine.ofFuel n).evaluate arg caller c) := by
  have ran := ((Machine.equivariant_ofFuel r scopes n).evaluate arg caller).alike.meets beside
  rwa [own, fixed] at ran

/-- An argument that is evaluated and bound beside an image. -/
theorem bindOne_ok {param arg : Value} (own : arg.rename r = arg) (beside : Beside r a c)
    (inside : id < c.frames.size) (outside : ∀ j, r.frame j ≠ id) (ne : param ≠ .str "__dict__")
    (ran : bindOne (.ofFuel n) (.environment id outer) caller param arg c = .ok () d) :
    ∃ w a', (Machine.ofFuel n).evaluate arg caller a = .ok w a' ∧ Beside r a' d ∧ id < d.frames.size := by
  obtain ⟨v, c', evaluated, rest⟩ := ok_of_bind (x := (Machine.ofFuel n).evaluate arg caller) ran
  have meets := evaluate_meets (n := n) scopes fixed own beside
  have grown : c.frames.size ≤ c'.frames.size :=
    (after_of_ok evaluated ▸ (Machine.growing_ofFuel n).evaluate arg caller c : Later c c').frames
  rw [evaluated] at meets
  cases alone : (Machine.ofFuel n).evaluate arg caller a with
  | error e a' =>
      rw [alone] at meets
      cases meets
  | ok w a' =>
      rw [alone] at meets
      cases meets with
      | ok beside' =>
          cases param with
          | str name =>
              have apart : name ≠ "__dict__" := fun same => ne (congrArg Value.str same)
              exact ⟨w, a', rfl, beside'.bound (inside.trans_le grown) outside apart rest⟩
          | _ => cases rest

/-- An argument that cannot be evaluated or bound leaves what evaluating it leaves. -/
theorem bindOne_error {param arg : Value} {e : Stop} (own : arg.rename r = arg) (beside : Beside r a c)
    (ran : bindOne (.ofFuel n) (.environment id outer) caller param arg c = .error e d) :
    Beside r (((Machine.ofFuel n).evaluate arg caller).after a) d := by
  have step : bindOne (.ofFuel n) (.environment id outer) caller param arg c =
      ((Machine.ofFuel n).evaluate arg caller >>= fun v => nameOf param >>= fun name =>
        writing .call (Run.bind id name v)) c := rfl
  have meets := evaluate_meets (n := n) scopes fixed own beside
  rw [step] at ran
  cases evaluated : (Machine.ofFuel n).evaluate arg caller c with
  | error e' c' =>
      rw [bind_of_error evaluated] at ran
      cases ran
      cases alone : (Machine.ofFuel n).evaluate arg caller a with
      | ok w a' =>
          rw [evaluated, alone] at meets
          cases meets
      | error e' a' =>
          rw [evaluated, alone] at meets
          cases meets with
          | error _ beside' => exact after_of_error alone ▸ beside'
  | ok v c' =>
      rw [bind_of_ok evaluated] at ran
      cases alone : (Machine.ofFuel n).evaluate arg caller a with
      | error e' a' =>
          rw [evaluated, alone] at meets
          cases meets
      | ok w a' =>
          rw [evaluated, alone] at meets
          cases meets with
          | ok beside' =>
              rw [after_of_ok alone]
              cases param with
              | str name => exact Run.passed_error ran ▸ beside'
              | _ =>
                  cases ran
                  exact beside'

/-- Arguments that are bound beside an image, one after another, leave the image as evaluating them does. -/
theorem bindAll_beside {params args : List Value} (same : params.length = args.length)
    (apart : .str "__dict__" ∉ params) (own : ∀ arg ∈ args, arg.rename r = arg) (beside : Beside r a c)
    (inside : id < c.frames.size) (outside : ∀ j, r.frame j ≠ id)
    (ran : bindAll (.ofFuel n) (.environment id outer) caller params args c = .ok () d) :
    ∃ ws a', args.mapM ((Machine.ofFuel n).evaluate · caller) a = .ok ws a' ∧ Beside r a' d := by
  induction params generalizing args a c with
  | nil =>
      obtain rfl := List.length_eq_zero_iff.mp same.symm
      cases ran
      exact ⟨[], a, rfl, beside⟩
  | cons param params ih =>
      cases args with
      | nil => cases same
      | cons arg args =>
          rw [List.mem_cons, not_or] at apart
          rw [bindAll_cons] at ran
          obtain ⟨_, c', first, rest⟩ := ok_of_bind ran
          obtain ⟨w, a', evaluated, beside', inside'⟩ := bindOne_ok scopes fixed (own arg (List.mem_cons_self ..))
            beside inside outside (Ne.symm apart.1) first
          obtain ⟨ws, a'', evaluated', beside''⟩ := ih (Nat.succ.inj same) apart.2
            (fun arg member => own arg (List.mem_cons_of_mem _ member)) beside' inside' rest
          refine ⟨w :: ws, a'', ?_, beside''⟩
          rw [List.mapM_cons, bind_of_ok evaluated, bind_of_ok evaluated']
          rfl

end

/-! What a call is prepared with. -/

theorem length_rows {α : Type} (width count : Nat) (data : List α) : (Grid.rows width count data).length = count := by
  induction count generalizing data with
  | zero => rfl
  | succ count ih => exact congrArg Nat.succ (ih _)

/-- Parameters that count as none are at most one, which is nothing, in an array. -/
theorem length_le_one {params : Value} {names : List Value} (falsy : params.truth = .ok false)
    (members : params.members = .ok names)
    (shaped : ∀ mark dtype shape data, params = .array mark dtype shape data → data.length = Grid.size shape) :
    names.length ≤ 1 := by
  cases params with
  | array mark dtype shape data =>
      have full := shaped mark dtype shape data rfl
      cases shape with
      | nil => cases members
      | cons n inner =>
          have one : data.length = 1 := by
            rcases data with _ | ⟨v, _ | ⟨w, rest⟩⟩
            · cases falsy
            · rfl
            · cases falsy
          rw [one, Grid.size_cons] at full
          have rows : names.length = n := by
            cases members
            rw [Value.arrayRows, Grid.parts, List.length_map, List.length_map, length_rows]
          exact rows.trans_le (Nat.dvd_one.mp (full ▸ Nat.dvd_mul_left n _)).le
  | _ =>
      rw [nil_of_not_truth falsy members fun _ _ _ _ same => Value.noConfusion same]
      exact Nat.zero_le _

/-- A procedure that closes over an environment; if its parameters are an array, it has as many elements as
its shape says. -/
structure Regular (t : Store) (proc : Value) : Prop where
  closes : ∀ mark code closed, proc = .procedure mark code closed → ∃ id outer, closed = .environment id outer
  shaped : ∀ mark code closed mark' dtype shape data u, proc = .procedure mark code closed →
    item code (.str "parameters") t = .ok (.array mark' dtype shape data) u →
      (u.items mark' data).length = Grid.size shape

/-- An argument of a call cannot be evaluated or bound, when the parameters before it are bound to the
arguments before it. -/
inductive Fails (k : Machine) (t : Store) (proc args caller : Value) :
    List Value → List Value → Value → Stop → Store → Prop
  | intro {env param arg : Value} {params params' front back : List Value} {c d u : Store} {e : Stop} :
      prepare proc args t = .ok (env, params ++ param :: params', front ++ arg :: back) c →
      params.length = front.length → bindAll k env caller params front c = .ok () d →
      bindOne k env caller param arg d = .error e u → Fails k t proc args caller params front arg e u

/-- Every frame that there was shows what evaluating some values, one after another, leaves it with, but for
the marks and numbers of what was made in the meantime. -/
def Leaves (n : Nat) (caller : Value) (t : Store) (vs : List Value) (u : Store) : Prop :=
  ∃ r : Renaming, r.Fixes t ∧ ∀ id < t.frames.size,
    u.frame id = (((vs.mapM ((Machine.ofFuel n).evaluate · caller)).after t).frame id).rename r

/-- A call that leaves nothing behind where it fails. One that does not fit is refused, whatever the machine
does; where an argument fails, so does the call, whatever calls do, and of what was bound before nothing is
seen, unless a dictionary was bound as that of the names. -/
structure Atomic (n : Nat) (t : Store) (proc args caller : Value) : Prop where
  refused : ∀ shown u, Unfit t args proc shown u → ∀ k, Refused t shown u (Calculus.apply k proc args caller t)
  propagated : ∀ params front arg e u, Fails (.ofFuel n) t proc args caller params front arg e u →
    ∀ call, Calculus.apply ⟨call, (Machine.ofFuel n).evaluate⟩ proc args caller t = .error e u
  unseen : ∀ params front arg e u, Fails (.ofFuel n) t proc args caller params front arg e u →
    Regular t proc → .str "__dict__" ∉ params → Leaves n caller t (front ++ [arg]) u

/-- What a call is prepared with: the arguments that its list holds, and a frame that was not there before or,
if its parameters count as none, the one that its procedure closes over. -/
theorem prepare_beside (rooted : t.IsRooted) {mark m : Nat} {code closed env : Value}
    {items params vs : List Value} {c : Store}
    (ran : prepare (.procedure mark code closed) (.list m items) t = .ok (env, params, vs) c) :
    vs = t.items m items ∧ ∃ r : Renaming, r.Fixes t ∧ Beside r t c ∧
      (env = closed ∧ (Regular t (.procedure mark code closed) → params.length ≤ 1) ∨
        ∃ id, env = .environment id closed ∧ id < c.frames.size ∧ ∀ j, r.frame j ≠ id) := by
  obtain ⟨names, t₁, read, ran⟩ := ok_of_bind ran
  obtain ⟨i, rfl⟩ := item_skips (by decide) read
  obtain ⟨expected, t₂, counted, ran⟩ := ok_of_bind ran
  obtain rfl := length_same counted
  obtain ⟨given, t₂, counted', ran⟩ := ok_of_bind ran
  obtain rfl := length_same counted'
  split at ran
  · obtain ⟨f, t₃, _, faulted⟩ := ok_of_bind ran
    cases faulted
  · obtain ⟨env', t₃, framed, ran⟩ := ok_of_bind ran
    obtain ⟨params', t₄, first, ran⟩ := ok_of_bind ran
    obtain ⟨vs', t₅, second, ran⟩ := ok_of_bind ran
    cases ran
    obtain ⟨⟨j, rfl⟩, listed, members, same⟩ := members_skips first
    have opened : truth names (t.skip i) = .ok true (t.skip i) ∧ env = .environment t.frames.size closed ∧
        t₃ = (t.skip i).opened ∨ ((t.skip i).head names).truth = .ok false ∧ env = closed ∧ t₃ = t.skip i := by
      rcases callFrame_apply framed with ⟨truthy, -⟩ | falsy
      · have truly : truth names (t.skip i) = .ok true (t.skip i) := by rw [truth_apply, truthy]
        unfold callFrame at framed
        rw [bind_of_ok truly] at framed
        cases framed
        exact .inl ⟨truly, rfl, rfl⟩
      · exact .inr falsy
    rcases opened with ⟨-, rfl, rfl⟩ | ⟨falsy, rfl, rfl⟩
    · have held : ((t.skip i).opened.skip j).head (.list m items) = .list m (t.items m items) := rfl
      cases (members_list held).symm.trans second
      obtain ⟨r, fixes, beside, outside⟩ := rooted.beside_opened i j
      exact ⟨rfl, r, fixes, beside, .inr ⟨t.frames.size, rfl, by simp [Store.opened, Store.push, Store.skip], outside⟩⟩
    · have held : ((t.skip i).skip j).head (.list m items) = .list m (t.items m items) := rfl
      cases (members_list held).symm.trans second
      obtain ⟨r, fixes, beside⟩ := rooted.beside_skip (i + j)
      refine ⟨rfl, r, fixes, Store.skip_skip t i j ▸ beside, .inl ⟨rfl, fun regular => ?_⟩⟩
      rw [same]
      refine length_le_one falsy members fun mark' dtype shape data array => ?_
      cases names with
      | array mark'' dtype' shape' data' =>
          have full := regular.shaped mark code env mark'' dtype' shape' data' _ rfl read
          simp only [Store.head, Value.array.injEq] at array
          obtain ⟨rfl, rfl, rfl, rfl⟩ := array
          exact full
      | _ => cases array

/-- Nothing is left behind by a call with settled arguments, from a settled environment. -/
theorem atomic (rooted : t.IsRooted) (n : Nat) (proc : Value) {m : Nat} {items : List Value}
    (given : Settled t (.list m items)) (calling : Settled t caller) :
    Atomic n t proc (.list m items) caller where
  refused shown u unfit k := unfit.refused k caller
  propagated params front arg e u fails call := by
    obtain ⟨prepared, same, bound, failed⟩ := fails
    cases proc with
    | procedure mark code closed =>
        rw [apply_eq_prepare, bind_of_ok prepared]
        dsimp only
        rw [bindAll_evaluates, bindAll_append _ _ _ same, bindAll_cons]
        exact bind_of_error ((bind_of_ok bound).trans (bind_of_error failed))
    | _ =>
        obtain ⟨_, _, _, faulted⟩ := ok_of_bind prepared
        cases faulted
  unseen params front arg e u fails regular apart := by
    obtain ⟨prepared, same, bound, failed⟩ := fails
    cases proc with
    | procedure mark code closed =>
        obtain ⟨held, r, fixes, beside, frame⟩ := prepare_beside rooted prepared
        have members : ∀ v ∈ t.items m items, v.rename r = v := by
          have fixed := rooted.settled_head given r fixes
          simp only [Store.head, Value.rename, Value.renameAll_eq, Value.list.injEq] at fixed
          exact fun v member => List.map_inj_left.mp (fixed.2.trans (List.map_id _).symm) v member
        have own : ∀ v ∈ front ++ [arg], v.rename r = v := fun v member => members v (held ▸ by
          rw [List.mem_append, List.mem_singleton] at member
          simp only [List.mem_append, List.mem_cons]
          exact member.imp_right .inl)
        suffices beside : Beside r (((front ++ [arg]).mapM ((Machine.ofFuel n).evaluate · caller)).after t) u by
          refine ⟨r, fixes, fun id before => ?_⟩
          have same := beside.image.frame id
          rwa [fixes.frames id before] at same
        have first : ∀ v ∈ front, v.rename r = v := fun v member => own v (List.mem_append_left _ member)
        have last : arg.rename r = arg := own arg (by simp)
        have calls : caller.rename r = caller := calling r fixes
        rcases frame with ⟨rfl, few⟩ | ⟨id, rfl, inside, outside⟩
        · -- the frame of the procedure itself: nothing was bound there before
          obtain ⟨id, outer, rfl⟩ := regular.closes mark code _ rfl
          have none := few regular
          rw [List.length_append, List.length_cons] at none
          obtain rfl : params = [] := List.length_eq_zero_iff.mp (by omega)
          obtain rfl : front = [] := List.length_eq_zero_iff.mp same.symm
          cases bound
          rw [List.nil_append, after_mapM_one]
          exact bindOne_error fixes.scopes calls last beside failed
        · obtain ⟨ws, a, ran, beside'⟩ := bindAll_beside fixes.scopes calls same apart first beside inside outside bound
          rw [after_mapM_append ran, after_mapM_one]
          exact bindOne_error fixes.scopes calls last beside' failed
    | _ =>
        obtain ⟨_, _, _, faulted⟩ := ok_of_bind prepared
        cases faulted

/-! The ways of calling. -/

/-- What evaluating an application evaluates before it calls: the head, then the arguments, from left to
right. -/
def operands (k : Machine) (expr env : Value) : Run (Value × Value) := do
  let proc ← headOf k (← getAttribute expr "head") env
  let given ← (← members (← getAttribute expr "args")).mapM (k.evaluate · env)
  return (proc, ← list given)

theorem evalApplication_eq_operands (k : Machine) (expr env : Value) : evalApplication k expr env =
    (operands k expr env >>= fun given => Calculus.apply k given.1 given.2 env) := by
  simp only [evalApplication, operands, bind_assoc, pure_bind]

/-- The same, with the values of the arguments before a list is made of them. -/
def operandValues (k : Machine) (expr env : Value) : Run (Value × List Value) := do
  let proc ← headOf k (← getAttribute expr "head") env
  let given ← (← members (← getAttribute expr "args")).mapM (k.evaluate · env)
  return (proc, given)

theorem operands_eq_values (k : Machine) (expr env : Value) : operands k expr env =
    (operandValues k expr env >>= fun given => list given.2 >>= fun args => pure (given.1, args)) := by
  simp only [operands, operandValues, bind_assoc, pure_bind]

theorem operandValues_equi {r : Renaming} {k : Machine} (equivariant : k.Equivariant r) (expr env : Value) :
    Equi r (Prod.map (Value.rename r) (List.map (Value.rename r))) (operandValues k expr env)
      (operandValues k (expr.rename r) (env.rename r)) := by
  refine (getAttribute_equi expr "head").bind fun head => ?_
  have rest (proc : Value) : Equi r (Prod.map (Value.rename r) (List.map (Value.rename r)))
      (getAttribute expr "args" >>= fun args => members args >>= fun args =>
        args.mapM (k.evaluate · env) >>= fun args => pure (proc, args))
      (getAttribute (expr.rename r) "args" >>= fun args => members args >>= fun args =>
        args.mapM (k.evaluate · (env.rename r)) >>= fun args => pure (proc.rename r, args)) :=
    (getAttribute_equi expr "args").bind fun args => (members_equi args).bind fun args =>
      (Equi.mapM (fun arg => equivariant.evaluate arg env) args).bind fun args => .pure (proc, args)
  cases head with
  | str name => exact (item_equi env (.str name)).bind rest
  | _ => exact (equivariant.evaluate _ env).bind rest

/-- The head and the arguments of a settled application are evaluated alike under every renaming that leaves
what was given out alone. -/
theorem operandValues_own (n : Nat) {expr env : Value} (own : Settled s expr) (calling : Settled s env)
    (r : Renaming) (fixes : r.Fixes s) : Equi r (Prod.map (Value.rename r) (List.map (Value.rename r)))
      (operandValues (.ofFuel n) expr env) (operandValues (.ofFuel n) expr env) := by
  have equi := operandValues_equi (Machine.equivariant_ofFuel r fixes.scopes n) expr env
  rwa [own r fixes, calling r fixes] at equi

theorem operands_own (n : Nat) {expr env : Value} (own : Settled s expr) (calling : Settled s env) (r : Renaming)
    (fixes : r.Fixes s) : Equi r (Prod.map (Value.rename r) (Value.rename r)) (operands (.ofFuel n) expr env)
      (operands (.ofFuel n) expr env) := by
  rw [operands_eq_values]
  exact (operandValues_own n own calling r fixes).bind fun given =>
    (list_equi given.2).bind fun args => .pure (given.1, args)

/-- What an application is evaluated to is settled where its evaluation leaves it. -/
theorem operands_settled (rooted : s.IsRooted) {n : Nat} {expr env proc given : Value} (own : Settled s expr)
    (calling : Settled s env) (ran : operands (.ofFuel n) expr env s = .ok (proc, given) t) :
    t.IsRooted ∧ Settled t given ∧ Settled t env ∧ ∃ mark vs, given = .list mark vs := by
  have equi := operands_own n own calling
  have later : Later s t := after_of_ok ran ▸ (equi .same (Renaming.same_fixes s)).grows s
  obtain ⟨rooted', settled⟩ := (Equi.after_rooted rooted equi).1 _ ran
  refine ⟨rooted', fun r fixes => congrArg Prod.snd (settled r fixes),
    fun r fixes => calling r (fixes.before later), ?_⟩
  obtain ⟨_, _, _, ran⟩ := ok_of_bind ran
  obtain ⟨_, _, _, ran⟩ := ok_of_bind ran
  obtain ⟨_, _, _, ran⟩ := ok_of_bind ran
  obtain ⟨_, _, _, ran⟩ := ok_of_bind ran
  obtain ⟨vs, _, _, ran⟩ := ok_of_bind ran
  cases ran
  exact ⟨_, vs, rfl⟩

/-- Makes a procedure of two parameters. -/
def pairing : Term :=
  .app (.prim .lambda) [.fn ["π"] (.item (.var "π") (.lit (.str "x"))), .list [.lit (.str "x"), .lit (.str "y")]]

def pairingCode : Value :=
  let header : Header := { name := "<lambda>", path := "<lambda>", params := ["π"], plain := true }
  .dict 18 [(.str "body", .closure 16 header (.item (.var "π") (.lit (.str "x"))) []),
    (.str "parameters", .list 17 [.str "x", .str "y"])]

/-- Makes a list of a number and of a name that nothing is bound to. -/
def halfBound : Term := .list [.num 1, .app (.var "Var") [.lit (.str "z")]]

/-- The store of a session that has made the procedure and the list. -/
def halfBoundStore : Store :=
  let made := (pairing.eval (.ofFuel 9) []).after Session.start
  (halfBound.eval (.ofFuel 9) [("p", .procedure 19 pairingCode outermost)]).after made

theorem reached_halfBound : Reached halfBoundStore
    [("l", .list 21 [.int 1, .var 20 (.str "z")]), ("p", .procedure 19 pairingCode outermost)] := by
  have made : pairing.eval (.ofFuel 9) [] Session.start = .ok (.procedure 19 pairingCode outermost)
      ((pairing.eval (.ofFuel 9) []).after Session.start) := rfl
  have listed : halfBound.eval (.ofFuel 9) [("p", .procedure 19 pairingCode outermost)]
      ((pairing.eval (.ofFuel 9) []).after Session.start) =
        .ok (.list 21 [.int 1, .var 20 (.str "z")]) halfBoundStore := rfl
  exact .ended "l" (.ended "p" .start made) listed

/-- The store of a call of the procedure before its parameters are bound. -/
def preparedStore : Store :=
  (prepare (.procedure 19 pairingCode outermost) (.list 21 [.int 1, .var 20 (.str "z")])).after halfBoundStore

theorem halfBound_fails : ∃ e u, Fails (.ofFuel 9) halfBoundStore (.procedure 19 pairingCode outermost)
    (.list 21 [.int 1, .var 20 (.str "z")]) outermost [.str "x"] [.int 1] (.var 20 (.str "z")) e u := by
  have prepared : prepare (.procedure 19 pairingCode outermost) (.list 21 [.int 1, .var 20 (.str "z")])
      halfBoundStore = .ok (.environment 1 outermost, [.str "x"] ++ .str "y" :: [],
        [.int 1] ++ .var 20 (.str "z") :: []) preparedStore := rfl
  have bound : bindAll (.ofFuel 9) (.environment 1 outermost) outermost [.str "x"] [.int 1] preparedStore =
      .ok () ((bindAll (.ofFuel 9) (.environment 1 outermost) outermost [.str "x"] [.int 1]).after preparedStore) := rfl
  exact ⟨_, _, .intro prepared rfl bound rfl⟩

theorem settled_outermost (s : Store) : Settled s outermost := fun r _ => by
  simp [outermost, Value.rename]

/-- A call whose third argument cannot be evaluated, when the dictionary of the outermost names is bound as
that of its own, and then one more argument. -/
def sharingFailure : Term :=
  .app (.prim .apply)
    [.app (.prim .lambda) [.fn ["π"] (.lit .none),
        .list [.lit (.str "__dict__"), .lit (.str "x"), .lit (.str "y")]],
      .list [.app (.var "Var") [.lit (.str "__dict__")], .lit (.int 5), .app (.var "Var") [.lit (.str "z")]],
      .var "ΓΠ"]

end Calculus

end Knot
