/-!
Shapes of rectangular grids, whose elements are kept in one list, row by row.
-/

namespace Knot.Grid

def size (shape : List Nat) : Nat := shape.foldl (· * ·) 1

/-- `count` pieces of `width` elements each, in order. -/
def rows {α : Type} (width : Nat) : Nat → List α → List (List α)
  | 0, _ => []
  | count + 1, data => data.take width :: rows width count (data.drop width)

/-- A shape written as a tuple. -/
def shapeText : List Nat → String
  | [] => "()"
  | [n] => s!"({n},)"
  | ns => "(" ++ ", ".intercalate (ns.map toString) ++ ")"

/-- A shape written without blanks, as faults of two shapes show them. -/
def denseText : List Nat → String
  | [n] => s!"({n},)"
  | ns => "(" ++ ",".intercalate (ns.map toString) ++ ")"

/-- The shape that two grids are stretched to: where the lengths along an axis differ, one of them
has to be 1. Axes are matched from the last. -/
def stretched? : List Nat → List Nat → Option (List Nat)
  | a, b => go a.reverse b.reverse |>.map List.reverse
where
  go : List Nat → List Nat → Option (List Nat)
    | [], b => some b
    | a, [] => some a
    | m :: a, n :: b =>
        if m = n ∨ n = 1 then (go a b).map (m :: ·)
        else if m = 1 then (go a b).map (n :: ·)
        else none

/-- The elements of a grid of shape `shape` read at every place of a grid it is stretched to. Both
shapes have the same number of axes. -/
def spread {α : Type} : List Nat → List Nat → List α → List α
  | n :: shape, m :: target, data =>
      let parts := (rows (size shape) n data).map (spread shape target)
      if n = m then parts.flatten else (List.replicate m parts.flatten).flatten
  | _, _, data => data

/-- The elements of a grid at every place of the stretched shape. -/
def stretch {α : Type} (shape target : List Nat) (data : List α) : List α :=
  spread (List.replicate (target.length - shape.length) 1 ++ shape) target data

theorem rows_flatten {α : Type} (width count : Nat) (data : List α)
    (h : data.length = width * count) : (rows width count data).flatten = data := by
  induction count generalizing data with
  | zero =>
      have nil : data = [] := List.eq_nil_of_length_eq_zero (by simpa using h)
      simp [rows, nil]
  | succ count ih =>
      have hd : (data.drop width).length = width * count := by
        simp [h, Nat.mul_succ]
      simp [rows, ih _ hd]

end Knot.Grid
