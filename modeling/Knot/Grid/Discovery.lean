import Knot.Decimal.Shortest
import Knot.Grid.Shape
import Knot.Number
import Knot.Text.Numeral
import Knot.Word

/-!
Making a rectangular grid of a value. The shape is the longest one that all nested sequences share;
the elements get the narrowest type that holds them all, in the order truth values, 64-bit words,
doubles, texts, any objects.
-/

namespace Knot

/-- A rectangular grid, its elements row by row. -/
structure Grid where
  dtype : DType
  shape : List Nat
  data : List Value

/-- The members of an arithmetic progression. -/
def rangeLength (start stop step : Int) : Nat :=
  if 0 < step then ((stop - start + step - 1) / step).toNat
  else ((start - stop - step - 1) / (-step)).toNat

def rangeItems (start stop step : Int) : List Value :=
  (List.range (rangeLength start stop step)).map fun (i : Nat) => .int (start + step * i)

namespace Grid

def textWidth : DType → Nat
  | .bool => 5
  | .int64 => 21
  | .uint64 => 20
  | .float64 => 32
  | .text width => width
  | .object => 0

/-- The narrowest type that holds what two types hold. -/
def join : DType → DType → DType
  | .object, _ | _, .object => .object
  | .text m, d => .text (max m (textWidth d))
  | d, .text m => .text (max m (textWidth d))
  | .bool, d => d
  | d, .bool => d
  | .int64, .int64 => .int64
  | .uint64, .uint64 => .uint64
  | _, _ => .float64

def intType (i : Int) : DType :=
  if Word.isSigned i then .int64
  else if Word.isUnsigned i then .uint64
  else .object

/-- The type of a grid's element on its own. -/
def elementType : Value → DType
  | .bool _ => .bool
  | .int i => intType i
  | .float .. => .float64
  | .str s => .text s.length
  | .array _ dtype _ _ => dtype
  | _ => .object

/-- An element on its way into a grid: a value as it is, or one that a grid of some type held. -/
structure Element where
  value : Value
  source : Option DType := none

/-- The elements of a grid; objects are given out as they are. -/
def stored (dtype : DType) (data : List Value) : List Element :=
  data.map ({ value := ·, source := if dtype = .object then none else some dtype })

mutual

/-- The elements of a sequence at each place that a shape has, the axes of `shape` deep. -/
def elements (shape : List Nat) (v : Value) : List Element :=
  match shape, v with
  | _ :: shape, .list _ items | _ :: shape, .tuple _ items => elementsAll shape items
  | _ :: _, .range _ start stop step => (rangeItems start stop step).map ({ value := · })
  | _, .array _ dtype inner data =>
      if inner.length ≤ shape.length then stored dtype data
      else
        let width := size (inner.drop shape.length)
        (rows width (size (inner.take shape.length)) data).map
          ({ value := .array 0 dtype (inner.drop shape.length) · })
  | _, v => [{ value := v }]

def elementsAll (shape : List Nat) (items : List Value) : List Element :=
  match items with
  | [] => []
  | v :: rest => elements shape v ++ elementsAll shape rest

end

mutual

/-- The types that the members of a sequence ask for, so many axes deep; those of a grid ask for its
type, even where it has none. -/
def typesOf (axes : Nat) (v : Value) : List DType :=
  match axes, v with
  | axes + 1, .list _ items | axes + 1, .tuple _ items => typesOfAll axes items
  | _ + 1, .range _ start stop step => (rangeItems start stop step).map elementType
  | _, v => [elementType v]

def typesOfAll (axes : Nat) (items : List Value) : List DType :=
  match items with
  | [] => []
  | v :: rest => typesOf axes v ++ typesOfAll axes rest

end

def commonStart : List Nat → List Nat → List Nat
  | m :: a, n :: b => if m = n then m :: commonStart a b else []
  | _, _ => []

/-- The common start of the shapes of all members. -/
def commonShape : List (List Nat) → List Nat
  | [] => []
  | first :: rest => rest.foldl commonStart first

mutual

/-- The shape that a value has as a grid: the longest one that all of its nested sequences share. -/
def shapeOf : Value → List Nat
  | .list _ items | .tuple _ items => items.length :: commonShape (shapesOf items)
  | .range _ start stop step => [rangeLength start stop step]
  | .array _ _ shape _ => shape
  | _ => []

def shapesOf : List Value → List (List Nat)
  | [] => []
  | v :: rest => shapeOf v :: shapesOf rest

end

/-- Whether a value is a row of further values. -/
def isRow : Value → Bool
  | .list .. | .tuple .. | .range .. => true
  | .array _ _ shape _ => !shape.isEmpty
  | _ => false

/-- The text that an element of a type has among texts. -/
def elementText (v : Value) : String :=
  match v with
  | .bool b => if b then "True" else "False"
  | .int i => toString i
  | .float _ x => Decimal.floatText x
  | .str s => s
  | _ => ""

def truncate (x : Float) : Except Fault Int :=
  match Binary64.ofFloat x with
  | .nan => .error (.value .nanInteger)
  | .infinite _ => .error (.overflow .infiniteInteger)
  | b => .ok (b.truncate?.getD 0)

/-- A whole number read from a text, which is shown as `shown` where it is none; of a long one only
the start is shown. -/
def integerOf (shown s : String) : Except Fault Int :=
  match Text.readInteger s with
  | .value i => .ok i
  | .tooLong digits => .error (.value (.numeralTooLong digits))
  | .malformed => .error (.value (.invalidInteger (shown.take 200).toString))

/-- A whole number of a value: fractions are cut off, texts are read. -/
def toInteger (v : Value) : Except Fault Int :=
  match v with
  | .bool b => .ok b.toNat
  | .int i => .ok i
  | .float _ x => truncate x
  | .str s => integerOf (Text.quoted s) s
  | .array _ _ [] [v] => toInteger v
  | .array .. => .error (.type .notScalar)
  | v => .error (.type (.integerArgument v.operandName))

/-- A double read from a text, which is shown as `shown` where it is none. -/
def doubleOf (shown s : String) : Except Fault Float :=
  match Text.float? s with
  | some x => .ok x
  | none => .error (.value (.invalidFloat shown))

def toDouble (v : Value) : Except Fault Float :=
  match v with
  | .none => .ok (0.0 / 0.0)
  | .str s => doubleOf (Text.quoted s) s
  | .array _ _ [] [v] => toDouble v
  | .array .. => .error (.type .notScalar)
  | v =>
      match v.number? with
      | some n => n.toFloat
      | none => .error (.type (.floatArgument v.operandName))

/-- Whether an element counts as true. -/
def elementTruth : Value → Bool
  | .none => false
  | .str s => !s.isEmpty
  | v => match v.number? with
    | some n => !n.isZero
    | none => true

def dtypeName : DType → String
  | .bool => "bool"
  | .int64 => "int64"
  | .uint64 => "uint64"
  | .float64 => "float64"
  | .text _ => "str"
  | .object => "object"

/-- A plain integer as a word of a type; it has to be in the type's range. -/
def fitWord (dtype : DType) (i : Int) : Except Fault Int :=
  match dtype with
  | .uint64 =>
      if Word.isUnsigned i then .ok i
      else if Word.isSigned i then .error (.overflow (.outOfWord i (dtypeName dtype)))
      else .error (.overflow .tooLargeForWord)
  | _ => if intType i = .int64 then .ok i else .error (.overflow .tooLargeForWord)

/-- A whole number as a word of a type; negative ones wrap where words have no sign. -/
def wrapWord (dtype : DType) (i : Int) : Except Fault Int :=
  match dtype with
  | .uint64 =>
      if Word.isSigned i || Word.isUnsigned i then .ok (Word.wrapUnsigned i)
      else .error (.overflow .tooLargeForWord)
  | _ => if intType i = .int64 then .ok i else .error (.overflow .tooLargeForWord)

/-- The 64-bit word of a type that an integer wraps to. -/
def wrap (dtype : DType) (i : Int) : Int :=
  match dtype with
  | .uint64 => Word.wrapUnsigned i
  | _ => Word.wrapSigned i

/-- The word that holds a number of a grid; one out of range becomes the lowest word. -/
def convertWord (dtype : DType) (v : Value) : Int :=
  match v with
  | .float _ x =>
      match (Binary64.ofFloat x).truncate? with
      | some i => wrap dtype (if intType i = .object then Word.lowest else i)
      | none => wrap dtype Word.lowest
  | .int i => wrap dtype i
  | .bool b => b.toNat
  | _ => 0

/-- A text as a grid keeps it: at most so many characters, and no zero characters at the end. -/
def keptText (width : Nat) (s : String) : Value :=
  .str (String.ofList (((s.toList.take width).reverse.dropWhile (· == '\x00')).reverse))

/-- How the values of a run are read into grids of texts and of truth values. -/
structure Reading where
  text : Value → Except Fault String
  truth : Value → Except Fault Bool

/-- Reading where only numbers and texts occur. -/
def Reading.simple : Reading := ⟨fun v => .ok (elementText v), fun v => .ok (elementTruth v)⟩

/-- A value as an element of a type. -/
def Reading.given (reading : Reading) (dtype : DType) (v : Value) : Except Fault Value :=
  match dtype with
  | .object => .ok v
  | .text width => keptText width <$> reading.text v
  | .bool => .bool <$> reading.truth v
  | .float64 => (fun x => .float 0 x) <$> toDouble v
  | dtype =>
      match v with
      | .int i => .int <$> fitWord dtype i
      | v => do return .int (← wrapWord dtype (← toInteger v))

/-- How a text that a grid held is shown. -/
def storedText (s : String) : String := "np.str_(" ++ Text.quoted s ++ ")"

/-- An element that another grid held as an element of a type. -/
def converted (dtype : DType) (v : Value) : Except Fault Value :=
  match dtype, v with
  | .object, v => .ok v
  | .text width, v => .ok (keptText width (elementText v))
  | .bool, v => .ok (.bool (elementTruth v))
  | .float64, .str s => (fun x => .float 0 x) <$> doubleOf (storedText s) s
  | .float64, v => (fun x => .float 0 x) <$> toDouble v
  | dtype, .str s => do return .int (← wrapWord dtype (← integerOf (storedText s) s))
  | dtype, v => .ok (.int (convertWord dtype v))

def Reading.cast (reading : Reading) (dtype : DType) (e : Element) : Except Fault Value :=
  match e.source with
  | none => reading.given dtype e.value
  | some _ => converted dtype e.value

/-- The type of all elements together; a grid without elements holds doubles. -/
def joinAll : List DType → DType
  | [] => .float64
  | d :: rest => rest.foldl join d

/-- The width of the longest text, where texts of any width are asked for. -/
def Reading.fitted (reading : Reading) (dtype : DType) (data : List Element) :
    Except Fault DType := do
  match dtype with
  | .text 0 =>
      let widths ← data.mapM fun e => match e.source with
        | some d => .ok (textWidth d)
        | none => String.length <$> reading.text e.value
      return .text (widths.foldl max 1)
  | d => return d

/-- The grid of a value, with elements of the type asked for or the narrowest that holds them all.
Rows of different lengths make no grid, except one of objects. -/
def make (reading : Reading) (requested : Option DType) (v : Value) : Except Fault Grid := do
  let shape := shapeOf v
  let data := elements shape v
  if requested ≠ some .object ∧ data.any (isRow ·.value) then
    .error (.value (.ragged shape.length (shapeText shape)))
  else
    let dtype ← reading.fitted (requested.getD (joinAll (typesOf shape.length v))) data
    return ⟨dtype, shape, ← data.mapM (reading.cast dtype)⟩

/-- The grid of a value; a value that is an array is its own grid. -/
def ofValue (v : Value) : Except Fault Grid :=
  match v with
  | .array _ dtype shape data => .ok ⟨dtype, shape, data⟩
  | v => make .simple none v

/-- The type of texts of at most so many characters. -/
def textTypeOf? (digits : String) : Option DType :=
  if digits.isEmpty then some (.text 0)
  else if digits.all Char.isDigit then digits.toNat?.map .text
  else none

/-- The element type of a name; texts may tell their width. -/
def dtypeOfName? (name : String) : Option DType :=
  match name with
  | "object" | "object_" | "O" => some .object
  | "int64" | "int" | "int_" | "i8" | "l" | "q" | "p" | "long" | "longlong" | "intp" => some .int64
  | "uint64" | "uint" | "u8" | "L" | "Q" | "P" | "ulong" | "ulonglong" | "uintp" => some .uint64
  | "float64" | "float" | "double" | "f8" | "d" => some .float64
  | "bool" | "bool_" | "?" | "b1" => some .bool
  | "str" | "str_" => some (.text 0)
  | name =>
      match name.toList with
      | 'U' :: digits | '<' :: 'U' :: digits | '=' :: 'U' :: digits =>
          textTypeOf? (String.ofList digits)
      | '<' :: 'i' :: '8' :: [] | '=' :: 'i' :: '8' :: [] => some .int64
      | '<' :: 'u' :: '8' :: [] | '=' :: 'u' :: '8' :: [] => some .uint64
      | '<' :: 'f' :: '8' :: [] | '=' :: 'f' :: '8' :: [] => some .float64
      | '|' :: 'O' :: [] => some .object
      | '|' :: 'b' :: '1' :: [] => some .bool
      | _ => none

end Grid

end Knot
