import Knot.Call.Collection
import Knot.Ceiling
import Knot.Signature

/-!
Calling methods, of a value or as functions of their receiver: what each of them expects and does.
-/

namespace Knot

open Run Signature

namespace Method

/-- What a method expects besides its receiver. -/
def signature (k : Kind) (m : Method) : Signature :=
  let of (params : List Parameter) : Signature := ⟨m.path k, params, true⟩
  match m with
  | bindingValue => of (required ["var"])
  | assertEq => of (required ["actual", "expected"] ++ defaulted ["label"])
  | special "__getattr__" | special "__getitem__" => of (required ["key"])
  | special "__exit__" => of (required ["exc_type", "exc", "tb"])
  | special "__eq__" => of (required ["other"])
  | _ => of []

/-- Enters what can be entered: a check run gives itself, a manager its limit. -/
def enter (owner : Value) : Run Value :=
  match owner with
  | .manager mark limit => do
      tell .steered
      Run.enter mark limit
  | owner => return owner

/-- Leaves what was entered; faults are not taken back. -/
def leave (owner : Value) : Run Value := do
  match owner with
  | .manager mark _ =>
      tell .steered
      Run.leave mark
  | .checkRun _ name _ trace results => closeRun name trace results
  | _ => pure ()
  return .bool false

/-- A name looked up as a binding only. -/
def binding (env name : Value) : Run Value := do
  match env with
  | .environment .. => item env name
  | env => lookup env (← nameOf name)

/-- Equality as the receiver's kind decides it: with values of its own kind only. -/
def equality (owner other : Value) : Run Value :=
  if owner.kind? = other.kind? then binary .equal owner other
  else return .inert "NotImplementedType"

/-- What a method does with its receiver and the values of its parameters. -/
def act (k : Machine) (owner : Value) (m : Method) (values : List (Option Value)) : Run Value := do
  let val (i : Nat) : Value := (values[i]?).join.getD .none
  match m with
  | isGlobal => return .bool (Value.same (← getAttribute owner "π") .none)
  | bindingValue => binding owner (val 0)
  | assertEq => checkEq k owner (val 0) (val 1) (val 2)
  | summary => Run.summary (← getAttribute owner "name") (← getAttribute owner "results")
  | special "__repr__" => return .str (← shown owner)
  | special "__str__" => return .str (← shownPlain owner)
  | special "__len__" => return .int (← Run.length owner)
  | special "__getitem__" => item owner (val 0)
  | special "__getattr__" => do missing owner (← nameOf (val 0))
  | special "__eq__" => equality owner (val 0)
  | special "__enter__" => enter owner
  | special "__exit__" => leave owner
  | _ => return .inert "NotImplementedType"

/-- A method of a value is called. -/
def call (k : Machine) (owner : Value) (m : Method) (args : List Value) (named : Named) :
    Run Value := do
  match m with
  | special "__call__" => k.call owner args named
  | m =>
      match Collection.call? owner m.name args named with
      | some result => result
      | none => m.act k owner (← ofExcept ((m.signature (owner.kind?.getD .none)).bind args named))

/-- A method is called as a function, with its receiver as the first argument. -/
def callUnbound (k : Machine) (kd : Kind) (m : Method) (args : List Value) (named : Named) :
    Run Value := do
  match m, args with
  | special "__call__", owner :: args => k.call owner args named
  | m, args =>
      let values ← ofExcept ((m.signature kd).unbound.bind args named)
      m.act k ((values.head?).join.getD .none) values.tail

end Method

end Knot
