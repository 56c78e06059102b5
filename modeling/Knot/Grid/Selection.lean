import Knot.Grid.Discovery

/-!
Parts of a grid: the part at an index along the first axis, at an index along each of the first
axes, at every index of a list, and where a mask is true. Indices that are negative count from the
end.
-/

namespace Knot

namespace Value

/-- The place that an index stands for; a negative one counts from the end. -/
def position? (length : Nat) (i : Int) : Option Nat :=
  if 0 ≤ i then (if i < length then some i.toNat else Option.none)
  else if -i ≤ length then some (length - (-i).toNat) else Option.none

/-- The integer that a value stands for as an index. An array stands for one only if it is a single
integer. -/
def index? : Value → Except Fault (Option Int)
  | int i => .ok (some i)
  | bool b => .ok (some b.toNat)
  | array _ .int64 [] [int i] | array _ .uint64 [] [int i] => .ok (some i)
  | array .. => .error (.type .notScalarIndex)
  | _ => .ok Option.none

end Value

namespace Grid

/-- A grid of so many axes as a value: the single element where there is none left. -/
def toValue (g : Grid) : Value :=
  match g.shape, g.data with
  | [], [v] => v
  | shape, data => .array 0 g.dtype shape data

/-- The parts of a grid along its first axis. -/
def parts (g : Grid) : List Grid :=
  match g.shape with
  | [] => []
  | n :: inner => (rows (size inner) n g.data).map (⟨g.dtype, inner, ·⟩)

def axisPlace (axis n : Nat) (i : Int) : Except Fault Nat :=
  match Value.position? n i with
  | some place => .ok place
  | none => .error (.index (.outOfAxis i axis n))

/-- The part at an index along each of the first axes. -/
def atIndices (axis : Nat) (g : Grid) : List Int → Except Fault Grid
  | [] => .ok g
  | i :: rest =>
      match g.shape with
      | [] => .error (.index (.tooManyAxes axis (axis + rest.length + 1)))
      | n :: inner => do
          let place ← axisPlace axis n i
          let width := size inner
          atIndices (axis + 1) ⟨g.dtype, inner, (g.data.drop (width * place)).take width⟩ rest

/-- The parts at the places of a grid of indices. -/
def gather (g indices : Grid) : Except Fault Grid :=
  match g.shape with
  | [] => .error (.index (.tooManyAxes 0 1))
  | n :: inner => do
      let parts := g.parts
      let chosen ← indices.data.mapM fun v => do
        let place ← axisPlace 0 n (← toInteger v)
        return ((parts[place]?).map Grid.data).getD []
      return ⟨g.dtype, indices.shape ++ inner, chosen.flatten⟩

/-- The parts where a mask along the first axes is true. -/
def masked (g mask : Grid) : Except Fault Grid :=
  let covered := g.shape.take mask.shape.length
  if g.shape.length < mask.shape.length then
    .error (.index (.tooManyAxes g.shape.length mask.shape.length))
  else
    match (covered.zip mask.shape).findIdx? fun (m, n) => m ≠ n with
    | some axis =>
        .error (.index (.maskSize axis (covered.getD axis 0) (mask.shape.getD axis 0)))
    | none =>
        let inner := g.shape.drop mask.shape.length
        let chosen := ((rows (size inner) (size mask.shape) g.data).zip mask.data).filter
          fun (_, v) => elementTruth v
        .ok ⟨g.dtype, chosen.length :: inner, (chosen.map (·.1)).flatten⟩

/-- The part that a list or an array chooses. -/
def choose (g : Grid) (key : Value) : Except Fault Grid := do
  let chosen ← ofValue key
  match chosen.dtype, chosen.data with
  | .bool, _ => masked g chosen
  | .int64, _ | .uint64, _ => gather g chosen
  | _, [] => gather g { chosen with dtype := .int64 }
  | _, _ => .error (.index (match key with
      | .array .. => .notIntegers
      | _ => .notIndex))

/-- The part at an integer along the first axis. One that is no signed word is no index. -/
def partAt (g : Grid) (i : Int) : Except Fault Grid :=
  match intType i with
  | .int64 =>
      if g.shape.isEmpty then .error (.index (.tooManyAxes 0 1)) else atIndices 0 g [i]
  | .uint64 => .error (.overflow .tooLargeForWord)
  | _ => .error (.index .notIndex)

/-- The part of a grid at a key. -/
def part (g : Grid) (key : Value) : Except Fault Value :=
  match key with
  | .none => .ok (Grid.toValue ⟨g.dtype, 1 :: g.shape, g.data⟩)
  | .int i => toValue <$> partAt g i
  | .bool b =>
      .ok (Grid.toValue ⟨g.dtype, b.toNat :: g.shape, if b then g.data else []⟩)
  | .array _ .int64 [] [.int i] | .array _ .uint64 [] [.int i] => toValue <$> partAt g i
  | .list .. | .range .. | .array .. => toValue <$> choose g key
  | .tuple _ items =>
      match items.mapM fun v => v.index?.toOption.join with
      | some indices => toValue <$> wholeAxes g indices
      | none => .error (.index .notIndex)
  | _ => .error (.index .notIndex)
where
  wholeAxes (g : Grid) (indices : List Int) : Except Fault Grid :=
    if g.shape.length < indices.length then
      .error (.index (.tooManyAxes g.shape.length indices.length))
    else atIndices 0 g indices

end Grid

end Knot
