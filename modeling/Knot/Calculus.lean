import Knot.Attribute
import Knot.Machine

/-!
The closure calculus. A procedure is a body, a list of parameters and the environment that it closes
over; applying it binds the parameters in a new environment inside that one and runs the body there.
Evaluation replaces variables by their values and runs applications; everything else stands for
itself.
-/

namespace Knot.Calculus

open Run

/-- A procedure of a code dictionary; no two of its parameters may be equal. -/
def newProcedure (code env : Value) : Run Value := do
  let params ← item code (.str "parameters")
  let names ← members params
  for name in names do ofExcept name.checkKey
  let count ← length params
  if (Value.distinct [] names).length ≠ count then
    fault (.value (.duplicateParameters (← shownPlain params)))
  else return .procedure (← fresh) code env

/-- A procedure of a body and parameters. -/
def lambda (body params env : Value) : Run Value := do
  let params ← if ← truth params then pure params else list []
  let code ← dict [(.str "body", body), (.str "parameters", params)]
  newProcedure code env

/-- Calls `f` on each element of a grid, row by row, and makes a grid of objects of the results. -/
def mapGrid (f : Value → Run Value) (v : Value) : Run Value := do
  let grid ← ofExcept (Grid.ofValue (← now v))
  let results ← grid.data.mapM fun element => do f (← marked element)
  array .object grid.shape results

section

variable (k : Machine)

/-- Binds each parameter to the value of its argument, evaluated in the caller's environment. -/
def bindAll (target caller : Value) : List Value → List Value → Run Unit
  | param :: params, arg :: args => do
      let id ← frameOf target
      let v ← k.evaluate arg caller
      let name ← nameOf param
      writing .call (bind id name v)
      bindAll target caller params args
  | _, _ => return ()

/-- The fault of a call with a wrong number of arguments. -/
def wrongCount (proc params args : Value) (expected given : Nat) : Run Fault := do
  let args ← shownPlain args
  let proc ← shownPlain proc
  let params ← shownPlain params
  return .contract (.wrongCount given args proc expected params)

/-- The environment that a body runs in: a new one inside the procedure's own, or that one itself
where there is nothing to bind. -/
def callFrame (params closed : Value) : Run Value := do
  if ← truth params then newEnvironment "APPLY.<locals>.<lambda>" "schemulator" closed
  else return closed

/-- Applies a procedure to arguments that come from the environment `caller`. -/
def apply (proc args caller : Value) : Run Value := do
  match proc with
  | .procedure _ code closed =>
      let params ← item code (.str "parameters")
      let expected ← length params
      let given ← length args
      if expected ≠ given then fault (← wrongCount proc params args expected given)
      else
        let env ← callFrame params closed
        bindAll k env caller (← members params) (← members args)
        k.app (← item code (.str "body")) [env]
  | v => fault (.contract (.notProcedure (← shown v) v.typeName))

/-- The procedure of an application: a head that is a text names it. -/
def headOf (head env : Value) : Run Value :=
  match head with
  | .str name => item env (.str name)
  | head => k.evaluate head env

/-- Evaluates an application: the head, then the arguments from left to right, then the call. -/
def evalApplication (expr env : Value) : Run Value := do
  let proc ← headOf k (← getAttribute expr "head") env
  let args ← (← members (← getAttribute expr "args")).mapM (k.evaluate · env)
  apply k proc (← list args) env

/-- Evaluates an expression: containers member by member, an array element by element, variables by
look-up, applications by a call. -/
def eval (expr env : Value) : Run Value := do
  match ← head expr with
  | .dict _ entries => dict (← entries.mapM fun (key, v) => return (key, ← k.evaluate v env))
  | .tuple _ items => tuple (← items.mapM (k.evaluate · env))
  | .list .. => list (← (← members expr).mapM (k.evaluate · env))
  | .array .. => mapGrid (k.evaluate · env) expr
  | .var _ sym => item env sym
  | .application .. => evalApplication k expr env
  | v => return v

/-- What a traced evaluation prints before it starts. -/
def echoEval (expr env tag : Value) : Run Unit := do
  let s ← get
  let doc (v : Value) := ofExcept ((s.view v).docWith s.frame)
  let fields : List (String × Doc) := [("'EVAL': ", .text ""), ("'env': ", ← doc env),
    ("'expr': ", ← doc expr), ("'tag': ", ← doc tag), ("'type': ", .atom expr.typeText)]
  let flat := "\x7b" ++ Value.commaJoin (fields.map fun (label, d) => label ++ d.flat) ++ "\x7d"
  print ((Doc.mapping flat fields).pretty ++ "\n")

/-- Evaluates an expression and, under the tag `debug`, prints it first. -/
def evalTagged (expr env tag : Value) : Run Value := do
  if ← truth (← binary .equal tag (.str "debug")) then echoEval expr env tag
  eval k expr env

end

/-- Binds a symbol in the frame of an environment. -/
def define (sym v env : Value) : Run Value := do
  let id ← frameOf env
  bind id (← nameOf sym) v
  return v

end Knot.Calculus
