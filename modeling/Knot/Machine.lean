import Knot.Run

/-!
How a run goes on one level deeper: by calling a value, or by evaluating an expression in an
environment. Everything that calls back into programs is written over these two, so each rule can be
read, and reasoned about, by itself.
-/

namespace Knot

abbrev Named := List (String × Value)

structure Machine where
  call : Value → List Value → Named → Run Value
  evaluate : Value → Value → Run Value

namespace Machine

/-- A machine without fuel. -/
def spent : Machine := ⟨fun _ _ _ => Run.outOfFuel, fun _ _ => Run.outOfFuel⟩

/-- A call with positional arguments only. -/
def app (k : Machine) (f : Value) (args : List Value) : Run Value := k.call f args []

end Machine

end Knot
