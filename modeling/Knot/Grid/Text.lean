import Knot.Decimal.Rounded
import Knot.Grid.Shape
import Knot.Layout

/-!
The text of a grid: rows between brackets, numbers aligned, lines of at most 75 columns. Doubles are
written with at most eight places and all of one column in one notation; a grid of more than a
thousand elements shows three at each end of every axis.
-/

namespace Knot.Grid

/-- What is written of one element. -/
inductive Cell where
  | bool (b : Bool)
  | int (i : Int)
  | float (x : Binary64)
  | shown (text : String)

def lineWidth : Nat := 75

def spaces (n : Nat) : String := String.ofList (List.replicate n ' ')

def padLeft (width : Nat) (s : String) : String := spaces (width - s.length) ++ s

/-! Doubles. -/

def dropZeros (digits : List Char) : List Char :=
  (digits.reverse.dropWhile (· == '0')).reverse

/-- The digits before and after the point, at most `places` after it. -/
def positionalParts (places m : Nat) (e : Int) : List Char × List Char :=
  if m = 0 then (['0'], [])
  else
    let d := Decimal.shortest m e
    let tenths : Int := d.digits.length - d.place
    let (whole, fraction) :=
      if tenths ≤ places then (Decimal.positional d).span (· != '.')
      else Decimal.withPlaces places m e
    (whole, dropZeros (fraction.dropWhile (· == '.')))

/-- The shortest digits, or the first `count` of the exact value where there are more. -/
def leadingDigits (count m : Nat) (e : Int) : Decimal.Digits :=
  if m = 0 then ⟨['0'], 1⟩
  else
    let d := Decimal.shortest m e
    if d.digits.length ≤ count then d
    else
      let d := Decimal.withDigits count m e
      { d with digits := dropZeros d.digits }

/-- As many digits as asked for: the shortest where they are as many, or else those of the exact
value. -/
def exactDigits (count m : Nat) (e : Int) : Decimal.Digits :=
  let d := Decimal.shortest m e
  if m ≠ 0 ∧ d.digits.length = count then d else Decimal.withDigits count m e

def exponentDigits (width : Nat) (n : Int) : String :=
  let digits := Nat.toDigits 10 n.natAbs
  (if n < 0 then "-" else "+") ++
    String.ofList (List.replicate (width - digits.length) '0' ++ digits)

def maxLength (texts : List String) : Nat := (texts.map String.length).foldl max 0

structure FiniteCell where
  negative : Bool
  m : Nat
  e : Int

def finiteCell? : Cell → Option FiniteCell
  | .float (.finite negative m e) => some ⟨negative, m, e⟩
  | _ => none

def FiniteCell.toFloat (c : FiniteCell) : Float := (Float.ofNat c.m).scaleB c.e

/-- Whether a column of doubles needs exponents. -/
def needsExponent (cells : List FiniteCell) : Bool :=
  match (cells.filter (·.m != 0)).map FiniteCell.toFloat with
  | [] => false
  | x :: rest =>
      let high := rest.foldl max x
      let low := rest.foldl min x
      high >= 1e8 || low < 0.0001 || high / low > 1000.0

def signed (negative : Bool) (digits : List Char) : String :=
  String.ofList (if negative then '-' :: digits else digits)

/-- How a column of doubles is written: the columns before and after the point, and the text of a
finite double with so many columns before the point. -/
structure FloatColumn where
  before : Nat
  after : Nat
  text : Nat → FiniteCell → String

def positionalColumn (cells : List FiniteCell) : FloatColumn :=
  let parts := cells.map fun c => (c.negative, positionalParts 8 c.m c.e)
  let before := maxLength (parts.map fun (negative, whole, _) => signed negative whole)
  let after := (parts.map fun (_, _, fraction) => fraction.length).foldl max 0
  ⟨before, after, fun before c =>
    let (whole, fraction) := positionalParts 8 c.m c.e
    padLeft before (signed c.negative whole) ++ "." ++ String.ofList fraction ++
      spaces (after - fraction.length)⟩

def scientificColumn (cells : List FiniteCell) : FloatColumn :=
  let parts := cells.map fun c => leadingDigits 9 c.m c.e
  let count := (parts.map (·.digits.length)).foldl max 1
  let width := (parts.map fun d => (exponentDigits 2 (d.place - 1)).length - 1).foldl max 0
  let before := if cells.any (·.negative) then 2 else 1
  ⟨before, width + 1 + count, fun before c =>
    let d := exactDigits count c.m c.e
    padLeft before (signed c.negative (d.digits.take 1)) ++ "." ++ String.ofList (d.digits.drop 1) ++
      "e" ++ exponentDigits width (d.place - 1)⟩

/-- The widest name of a value that is not finite. -/
def nameWidth (cells : List Cell) : Nat :=
  if cells.any fun c => match c with | .float (.infinite true) => true | _ => false then 4 else 3

def floatColumn (cells : List Cell) : FloatColumn :=
  let finite := cells.filterMap finiteCell?
  let column :=
    if finite.isEmpty then ⟨0, 0, fun _ _ => ""⟩
    else if needsExponent finite then scientificColumn finite
    else positionalColumn finite
  if finite.length = cells.length then column
  else { column with before := max column.before (nameWidth cells - (column.after + 1)) }

def floatCellText (column : FloatColumn) : Binary64 → String
  | .finite negative m e => column.text column.before ⟨negative, m, e⟩
  | .nan => padLeft (column.before + column.after + 1) "nan"
  | .infinite negative =>
      padLeft (column.before + column.after + 1) (if negative then "-inf" else "inf")

/-- The text of each cell, given the cells that set the column's width. -/
def cellText (scalar : Bool) (sample : List Cell) : Cell → String :=
  let column := floatColumn sample
  let width := maxLength (sample.map fun c => match c with | .int i => toString i | _ => "")
  fun c =>
    match c with
    | .bool b => if b then (if scalar then "True" else " True") else "False"
    | .int i => padLeft width (toString i)
    | .float x => floatCellText column x
    | .shown text => text

/-! Rows. -/

/-- The text before the current line, and the current line. -/
structure Lines where
  done : String
  current : String

def trimRight (s : String) : String :=
  String.ofList (s.toList.reverse.dropWhile Text.isBlank).reverse

/-- Puts a word of one line behind the current line, or on a new one if it does not fit. -/
def putWord (width : Nat) (hanging : String) (lines : Lines) (word : String) : Lines :=
  if lines.current.length + word.length > width ∧ lines.current.length > hanging.length then
    ⟨lines.done ++ trimRight lines.current ++ "\n", hanging ++ word⟩
  else ⟨lines.done, lines.current ++ word⟩

def textLines (s : String) : List String :=
  (Text.lines s.toList).map fun line =>
    String.ofList (line.reverse.dropWhile Text.isLineEnd).reverse

/-- Puts a word of several lines in place, its lines under each other. -/
def putLines (width : Nat) (hanging : String) (lines : Lines) (word : String) : Lines :=
  match textLines word with
  | [] => putWord width hanging lines word
  | [_] => putWord width hanging lines word
  | first :: rest =>
      let longest := maxLength (first :: rest)
      let breaks := lines.current.length + longest > width ∧ lines.current.length > hanging.length
      let indent := if breaks then hanging else spaces lines.current.length
      let start : Lines :=
        if breaks then ⟨lines.done ++ trimRight lines.current ++ "\n", hanging ++ first⟩
        else ⟨lines.done, lines.current ++ first⟩
      let placed := rest.foldl (fun (l : Lines) part =>
        ⟨l.done ++ trimRight l.current ++ "\n", indent ++ part⟩) start
      { placed with current := placed.current ++ spaces (longest - (rest.getLastD "").length) }

/-- The members that are shown of an axis; `none` stands for those left out. -/
def shownOf {α : Type} (summary : Bool) (items : List α) : List (Option α) :=
  if summary ∧ 6 < items.length then
    (items.take 3).map some ++ [none] ++ (items.drop (items.length - 3)).map some
  else items.map some

/-- The last axis: words behind each other, wrapped. -/
def rowText (separator : String) (hanging : String) (width : Nat) :
    Lines → List (Option String) → String
  | lines, [] => lines.done ++ lines.current
  | lines, [word] =>
      let placed := putLines (width - 1) hanging lines (word.getD "...")
      placed.done ++ placed.current
  | lines, word :: rest =>
      let placed :=
        match word with
        | some w => putLines (width - (max (trimRight separator).length 1)) hanging lines w
        | none => putWord (width - (max (trimRight separator).length 1)) hanging lines "..."
      rowText separator hanging width { placed with current := placed.current ++ separator } rest

/-- Brackets around the rows of each axis, outer rows apart by as many line ends as axes follow. -/
def nested (separator : String) (summary : Bool) (hanging : String) (width : Nat) :
    List Nat → List String → String
  | [], words => words.headD ""
  | [_], words =>
      let body := rowText separator hanging width ⟨"", hanging⟩ (shownOf summary words)
      "[" ++ (body.drop hanging.length).toString ++ "]"
  | n :: m :: shape, words =>
      let rows := (rows (size (m :: shape)) n words).map
        (nested separator summary (hanging ++ " ") (width - 1) (m :: shape))
      let between := trimRight separator ++ String.ofList (List.replicate (shape.length + 1) '\n')
      let body := between.intercalate
        ((shownOf summary rows).map fun row => hanging ++ row.getD "...")
      "[" ++ (body.drop hanging.length).toString ++ "]"

/-- The elements that are shown of a grid. -/
def sampleOf {α : Type} : List Nat → List α → List α
  | [], data => data
  | n :: shape, data =>
      let rows := (rows (size shape) n data).map (sampleOf shape)
      ((shownOf true rows).filterMap id).flatten

def bodyText (separator : String) (hanging : String) (width : Nat) (shape : List Nat)
    (cells : List Cell) : String :=
  if cells.isEmpty then "[]"
  else
    let summary := decide (1000 < cells.length)
    let sample := if summary then sampleOf shape cells else cells
    nested separator summary hanging width shape
      (cells.map (cellText shape.isEmpty sample))

/-- The text of a grid between brackets only. -/
def plainText (shape : List Nat) (cells : List Cell) : String :=
  bodyText " " " " lineWidth shape cells

/-- The text of a grid with its type, where the elements do not show it, and its shape, where the
brackets do not show it. -/
def fullText (dtype : String) (implied : Bool) (shape : List Nat) (cells : List Cell) : String :=
  let start := "array(" ++ bodyText ", " (spaces 7) (lineWidth - 1) shape cells
  let showsShape := (cells.isEmpty && shape != [0]) || decide (1000 < cells.length)
  let extras :=
    (if showsShape then ["shape=" ++ shapeText shape] else []) ++
      (if !implied || cells.isEmpty then ["dtype=" ++ dtype] else [])
  if extras.isEmpty then start ++ ")"
  else
    let start := start ++ ","
    let extra := ", ".intercalate extras ++ ")"
    let last := (start.toList.reverse.takeWhile (· != '\n')).length
    start ++ (if last + extra.length + 1 > lineWidth then "\n" ++ spaces 6 else " ") ++ extra

end Knot.Grid
