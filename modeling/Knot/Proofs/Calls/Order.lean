import Knot.Proofs.Calls.Failure
import Knot.Proofs.Grids.Elementwise

/-!
The order in which an application is evaluated: its head, then each argument once, from left to right, in one
environment, and then the call. The call evaluates what the arguments gave once more, in the same order and
environment, and binds what that gives. Of a value that stands for itself nothing shows of it; a value that is
a variable or an application is not what the body finds, but what it stands for is.
-/

namespace Knot

open Run Renaming Store

variable {s t u : Store} {k : Machine} {expr env caller : Value}

/-- What stands for itself is its own only copy. -/
theorem CopyOf.eq_of_isAtom {v w : Value} (copy : CopyOf s v w) (atom : v.isAtom = true) : w = v := by
  have stays : s.head v = v := by
    cases v with
    | dict | list | array => cases atom
    | _ => rfl
  cases copy with
  | atom => rfl
  | dict held | tuple held | list held =>
      rw [stays] at held
      subst held
      cases atom

namespace Calculus

/-! Head and arguments. -/

/-- What the head of an application is evaluated to. -/
def procedureOf (k : Machine) (expr env : Value) : Run Value := do headOf k (← getAttribute expr "head") env

/-- The arguments of an application, as it lists them when they are asked for. -/
def argumentsOf (expr : Value) : Run (List Value) := do members (← getAttribute expr "args")

theorem operandValues_eq (k : Machine) (expr env : Value) : operandValues k expr env =
    (procedureOf k expr env >>= fun proc => argumentsOf expr >>= fun items =>
      items.mapM (k.evaluate · env) >>= fun vs => pure (proc, vs)) := by
  simp only [operandValues, procedureOf, argumentsOf, bind_assoc]

/-- The head of an application gives what is called, and then each of its arguments, one after another, gives
a value. -/
inductive Operands (k : Machine) (expr env : Value) (s : Store) : Value → List Value → Store → Prop
  | intro {proc : Value} {items vs : List Value} {s₁ s₂ t : Store} : procedureOf k expr env s = .ok proc s₁ →
      argumentsOf expr s₁ = .ok items s₂ → InTurn (k.evaluate · env) items s₂ vs t →
      Operands k expr env s proc vs t

section

variable {proc : Value} {vs : List Value} (gives : Operands k expr env s proc vs t)
include gives

theorem Operands.values : operandValues k expr env s = .ok (proc, vs) t := by
  obtain ⟨first, listed, steps⟩ := gives
  rw [operandValues_eq, bind_of_ok first, bind_of_ok listed, bind_of_ok (mapM_of_inTurn steps)]
  rfl

theorem Operands.run : operands k expr env s = .ok (proc, .list t.nextMark vs) (t.skip 1) := by
  rw [operands_eq_values, bind_of_ok gives.values]
  rfl

end

/-- How the evaluation of an application ends. It stops where its head fails, where it lists no arguments, or
at the first argument that fails; otherwise it calls what the head gave with what the arguments gave. -/
inductive InOrder (k : Machine) (expr env : Value) (s : Store) : EStateM.Result Stop Store Value → Prop
  | head {e : Stop} {t : Store} : procedureOf k expr env s = .error e t → InOrder k expr env s (.error e t)
  | unlisted {proc : Value} {e : Stop} {t u : Store} : procedureOf k expr env s = .ok proc t →
      argumentsOf expr t = .error e u → InOrder k expr env s (.error e u)
  | argument {proc arg : Value} {done rest vs : List Value} {e : Stop} {s₁ s₂ t u : Store} :
      procedureOf k expr env s = .ok proc s₁ → argumentsOf expr s₁ = .ok (done ++ arg :: rest) s₂ →
      InTurn (k.evaluate · env) done s₂ vs t → k.evaluate arg env t = .error e u →
      InOrder k expr env s (.error e u)
  | called {proc : Value} {vs : List Value} {t : Store} : Operands k expr env s proc vs t →
      InOrder k expr env s (Calculus.apply k proc (.list t.nextMark vs) env (t.skip 1))

theorem evalApplication_inOrder (k : Machine) (expr env : Value) (s : Store) :
    InOrder k expr env s (evalApplication k expr env s) := by
  have whole : evalApplication k expr env s = (procedureOf k expr env >>= fun proc => argumentsOf expr >>= fun items =>
      items.mapM (k.evaluate · env) >>= fun vs => list vs >>= fun given => Calculus.apply k proc given env) s := by
    simp only [evalApplication_eq_operands, operands_eq_values, operandValues_eq, bind_assoc, pure_bind]
  rw [whole]
  cases first : procedureOf k expr env s with
  | error e t =>
      rw [bind_of_error first]
      exact .head first
  | ok proc t =>
      rw [bind_of_ok first]
      cases listed : argumentsOf expr t with
      | error e u =>
          rw [bind_of_error listed]
          exact .unlisted first listed
      | ok items u =>
          rw [bind_of_ok listed]
          rcases mapM_bind_cases (k.evaluate · env) (fun vs => list vs >>= fun given => Calculus.apply k proc given env)
              items u with ⟨vs, t', steps, made⟩ | ⟨done, arg, rest, vs, t', e, u', rfl, steps, stops, failed⟩
          · rw [made]
            exact .called ⟨first, listed, steps⟩
          · rw [failed]
            exact .argument first listed steps stops

/-! The second evaluation. -/

/-- How a call that is prepared ends. Each argument is evaluated in the caller's environment, and what it gives
is bound, before the next one; the first that fails is the last. Then the body runs. -/
inductive BindsInTurn (k : Machine) (code target caller : Value) (params args : List Value) (s : Store) :
    EStateM.Result Stop Store Value → Prop
  | stops {param arg : Value} {done rest : List (Value × Value)} {units : List Unit} {e : Stop} {t u : Store} :
      params.zip args = done ++ (param, arg) :: rest →
      InTurn (fun pair => bindOne k target caller pair.1 pair.2) done s units t →
      bindOne k target caller param arg t = .error e u → BindsInTurn k code target caller params args s (.error e u)
  | runs {units : List Unit} {t : Store} :
      InTurn (fun pair => bindOne k target caller pair.1 pair.2) (params.zip args) s units t →
      BindsInTurn k code target caller params args s
        ((item code (.str "body") >>= fun body => k.app body [target]) t)

theorem bindAll_eq_mapM (k : Machine) (target caller : Value) (params args : List Value) :
    bindAll k target caller params args =
      ((params.zip args).mapM (fun pair => bindOne k target caller pair.1 pair.2) >>= fun _ => pure ()) := by
  induction params generalizing args with
  | nil => rfl
  | cons param params ih =>
      cases args with
      | nil => rfl
      | cons arg args =>
          rw [bindAll_cons, ih, List.zip_cons_cons, List.mapM_cons]
          simp only [bind_assoc, pure_bind]

theorem apply_bindsInTurn {mark : Nat} {code closed given target : Value} {params args : List Value}
    (prepared : prepare (.procedure mark code closed) given s = .ok (target, params, args) t) :
    BindsInTurn k code target caller params args t
      (Calculus.apply k (.procedure mark code closed) given caller s) := by
  have rest : Calculus.apply k (.procedure mark code closed) given caller s =
      ((params.zip args).mapM (fun pair => bindOne k target caller pair.1 pair.2) >>= fun _ =>
        item code (.str "body") >>= fun body => k.app body [target]) t := by
    rw [apply_eq_prepare, bind_of_ok prepared]
    dsimp only
    simp only [bindAll_eq_mapM, bind_assoc, pure_bind]
  rw [rest]
  rcases mapM_bind_cases (fun pair : Value × Value => bindOne k target caller pair.1 pair.2)
      (fun _ => item code (.str "body") >>= fun body => k.app body [target]) (params.zip args) t with
    ⟨units, u, steps, ran⟩ | ⟨done, pair, rest, units, u, e, w, parts, steps, stops, failed⟩
  · rw [ran]
    exact .runs steps
  · rw [failed]
    exact .stops parts steps stops

/-! What the body finds. -/

/-- An application comes to running the body where the names are bound to the values of the arguments, each that
stands for itself as it is, and a container as a copy of it. -/
def ReceivesValues (n : Nat) (s : Store) (proc arguments caller : Value) (names : List String) (vs : List Value) :
    Prop :=
  ∃ mark code closed env t, proc = .procedure mark code closed ∧ Entered s closed names vs env t ∧
    List.Forall₂ (fun name v => v.isAtom = true → t.lookup name env = .ok v) names vs ∧
    Calculus.apply (.ofFuel n) proc arguments caller s =
      (item code (.str "body") >>= fun body => (Machine.ofFuel n).app body [env]) t

theorem StartsBody.receivesValues {n : Nat} {proc arguments : Value} {names : List String} {vs : List Value}
    (starts : StartsBody n s proc arguments caller names vs) :
    ReceivesValues n s proc arguments caller names vs := by
  obtain ⟨mark, code, closed, env, t, same, entered, run⟩ := starts
  refine ⟨mark, code, closed, env, t, same, entered, entered.bound.imp ?_, run⟩
  rintro name v ⟨w, copy, found⟩ atom
  rwa [copy.eq_of_isAtom atom] at found

/-- The store that a program leaves. -/
def storeAfter (program : Term) (scope : Scope) (s : Store) : Store := (program.eval (.ofFuel 9) scope).after s

theorem reached_storeAfter {scope : Scope} {program : Term} {v : Value} (name : String) (reached : Reached s scope)
    (run : program.eval (.ofFuel 9) scope s = .ok v (storeAfter program scope s)) :
    Reached (storeAfter program scope s) ((name, v) :: scope) := .ended name reached run

/-- Binds a name where a session starts. -/
def binding (name : String) (v : Term) : Term := .app (.prim .define) [.lit (.str name), v]

/-- Makes a variable. -/
def variableOf (name : String) : Term := .app (.var "Var") [.lit (.str name)]

/-- Makes an application of a procedure of two parameters to a variable and to a list that holds it. -/
def pairApplying : Term :=
  .app (.var "Application") [.var "p", .list [variableOf "v", .list [variableOf "v", .num 2]]]

def pairApplication : Value :=
  .application 24 (.procedure 19 pairingCode outermost)
    (.list 23 [.var 20 (.str "v"), .list 22 [.var 21 (.str "v"), .int 2]]) outermost

/-- The names of a session that has made the procedure and bound the variable. -/
def pairScope : Scope := [("v", .int 3), ("p", .procedure 19 pairingCode outermost)]

/-- The store when the application is made. -/
def pairStore : Store :=
  storeAfter pairApplying pairScope (storeAfter (binding "v" (.num 3)) [("p", .procedure 19 pairingCode outermost)]
    (storeAfter pairing [] Session.start))

theorem reached_pair : Reached pairStore (("a", pairApplication) :: pairScope) :=
  reached_storeAfter "a" (reached_storeAfter "v" (reached_storeAfter "p" .start rfl) rfl) rfl

/-- The store when both arguments have been evaluated. -/
def operandsStore : Store := (operandValues (.ofFuel 9) pairApplication outermost).after pairStore

theorem operands_pair : Operands (.ofFuel 9) pairApplication outermost pairStore (.procedure 19 pairingCode outermost)
    [.int 3, .list 25 [.int 3, .int 2]] operandsStore :=
  .intro rfl rfl (.cons rfl (.cons rfl (.nil _)))

/-- An application of a procedure of one parameter, which gives it back, to a variable. -/
def aliasApplication : Value :=
  .application 23 (.procedure 19 Machine.givingCode outermost) (.list 22 [.var 21 (.str "v")]) outermost

/-- The names of a session that has made the procedure and bound the variable to a variable of another name, and
that one to a number. -/
def aliasScope : Scope :=
  [("w", .int 1), ("v", .var 20 (.str "w")), ("p", .procedure 19 Machine.givingCode outermost)]

/-- The store when the application is made. -/
def aliasStore : Store :=
  storeAfter (.app (.var "Application") [.var "p", .list [variableOf "v"]]) aliasScope
    (storeAfter (binding "w" (.num 1)) [("v", .var 20 (.str "w")), ("p", .procedure 19 Machine.givingCode outermost)]
      (storeAfter (binding "v" (variableOf "w")) [("p", .procedure 19 Machine.givingCode outermost)]
        (storeAfter Machine.giving [] Session.start)))

end Calculus

end Knot
