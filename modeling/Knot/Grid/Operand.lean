import Knot.Grid.Discovery

/-!
The two sides of an operation on grids. A plain number beside a grid takes the type of the grid's
elements if they are numbers of its sort or a wider one; every other value makes a grid of its own.
-/

namespace Knot.Grid

/-- One side of an operation; `plain` tells a number that takes its type from the other side. -/
structure Operand where
  grid : Grid
  plain : Bool := false

/-- An integer beside elements of a type. -/
def plainInteger (beside : DType) (i : Int) : Except Fault Operand :=
  let single (dtype : DType) (v : Value) : Operand := ⟨⟨dtype, [], [v]⟩, true⟩
  match beside with
  | .object => .ok (single .object (.int i))
  | .float64 => do return single .float64 (.float 0 (← (Number.int i).toFloat))
  | .uint64 => .ok (single .uint64 (.int i))
  | .text _ => .ok (single (intType i) (.int i))
  | _ => .ok (single .int64 (.int i))

def operand (beside : DType) (v : Value) : Except Fault Operand :=
  match v with
  | .int i => plainInteger beside i
  | .float .. =>
      .ok ⟨⟨if beside = .object then .object else .float64, [], [v]⟩, true⟩
  | v => return { grid := ← ofValue v }

/-- The sides of an operation on two values of which one is an array. -/
def operands (a b : Value) : Except Fault (Operand × Operand) := do
  match a, b with
  | .array _ left _ _, .array .. => return (← operand left a, ← operand left b)
  | .array _ left _ _, b => return ({ grid := ← ofValue a }, ← operand left b)
  | a, .array _ right _ _ => return (← operand right a, { grid := ← ofValue b })
  | a, b => return ({ grid := ← ofValue a }, { grid := ← ofValue b })

/-- The elements that meet, over the shape that both grids are stretched to. -/
def meeting (a b : Grid) : Except Fault (List Nat × List (Value × Value)) :=
  match stretched? a.shape b.shape with
  | none => .error (.value (.cannotBroadcast (denseText a.shape) (denseText b.shape)))
  | some shape => .ok (shape, (stretch a.shape shape a.data).zip (stretch b.shape shape b.data))

end Knot.Grid
