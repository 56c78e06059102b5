import Knot.Printer
import Knot.Sequence
import Knot.Template.Filling

/-!
Operators on values. Texts, lists and tuples are joined by `+` and repeated by `*`, and a text is
filled by `%`; arrays take every operator element by element, and the 64-bit words of their elements
wrap.
-/

namespace Knot

def BinaryOp.text : BinaryOp → String
  | add => "+"
  | sub => "-"
  | mul => "*"
  | floorDiv => "//"
  | mod => "%"
  | less => "<"
  | lessEqual => "<="
  | equal => "=="
  | identical => "is"

namespace Value

def ofNumber (mark : Nat) : Number → Value
  | .int i => int i
  | .float x => float mark x

def isArray : Value → Bool
  | array .. => true
  | _ => false

def unsupported (op : BinaryOp) (a b : Value) : Except Fault Value :=
  .error (.type (.unsupported op.text a.operandName b.operandName))

/-- An operator on two numbers, where both operands are numbers. -/
def numeric? (mark : Nat) (op : Number → Number → Except Fault Number) (a b : Value) :
    Option (Except Fault Value) :=
  match a.number?, b.number? with
  | some m, some n => some (ofNumber mark <$> op m n)
  | _, _ => Option.none

def repeated {α : Type} (n : Nat) (items : List α) : List α := (List.replicate n items).flatten

/-- How often a sequence is repeated; less than once is never. -/
def repeatCount (b : Value) : Except Fault Nat := do
  match ← b.index? with
  | some n =>
      if Word.isSigned n then return n.toNat else throw (.overflow .tooLargeForCount)
  | Option.none => throw (.type (.cannotRepeat b.operandName))

/-- More members than a list or a tuple can have in memory. -/
def memberLimit : Nat := 268435456

/-- The members repeated. -/
def repeatMembers (n : Nat) (items : List Value) : Except Fault (List Value) :=
  if items.isEmpty then .ok []
  else if memberLimit < n * items.length then .error .memory
  else .ok (repeated n items)

def repeatText (n : Nat) (s : String) : Except Fault String :=
  if s.isEmpty then .ok ""
  else if sizeLimit < n * s.length then .error (.overflow .textTooLong)
  else if memberLimit < n * s.length then .error .memory
  else .ok (String.ofList (repeated n s.toList))

/-- A sequence repeated a number of times; none where `a` is no sequence. -/
def repeat? (mark : Nat) (a b : Value) : Option (Except Fault Value) :=
  match a with
  | str s => some (do return str (← repeatText (← b.repeatCount) s))
  | list _ items => some (do return list mark (← repeatMembers (← b.repeatCount) items))
  | tuple _ items => some (do return tuple mark (← repeatMembers (← b.repeatCount) items))
  | _ => Option.none

def plus (mark : Nat) (a b : Value) : Except Fault Value :=
  match a, b with
  | str s, str t => .ok (str (s ++ t))
  | list _ xs, list _ ys => .ok (list mark (xs ++ ys))
  | tuple _ xs, tuple _ ys => .ok (tuple mark (xs ++ ys))
  | str _, b | list .., b | tuple .., b =>
      .error (.type (.cannotConcatenate a.operandName b.operandName))
  | a, b => (numeric? mark Number.add a b).getD (unsupported .add a b)

def times (mark : Nat) (a b : Value) : Except Fault Value :=
  ((numeric? mark Number.mul a b).or ((repeat? mark a b).or (repeat? mark b a))).getD
    (unsupported .mul a b)

/-- The order of two values of which the right one alone may be an array: it then compares itself,
from the other side. -/
def reflected (arrays : OrderOp → Value → Value → Except Fault Value) (op : OrderOp) (a b : Value) :
    Except Fault Value :=
  if a.isArray then arrays op a b else arrays op.flip b a

/-- How values of which one is an array are compared and computed with. -/
structure Elementwise where
  arithmetic : BinaryOp → Value → Value → Except Fault Value
  order : OrderOp → Value → Value → Except Fault Value
  equality : Value → Value → Except Fault Value

/-- An arithmetic operator on two values that are no arrays. -/
def compute (mark : Nat) (op : BinaryOp) (a b : Value) :
    Except Fault Value :=
  match op with
  | .add => plus mark a b
  | .sub => (numeric? mark Number.sub a b).getD (unsupported op a b)
  | .mul => times mark a b
  | .floorDiv => (numeric? mark Number.floorDiv a b).getD (unsupported op a b)
  | op => (numeric? mark Number.mod a b).getD (unsupported op a b)

/-- An operator on two values. -/
def operateWith (arrays : Elementwise) (reader : Template.Reader) (mark : Nat) (op : BinaryOp)
    (a b : Value) : Except Fault Value :=
  match op, a with
  | .identical, a => .ok (bool (same a b))
  | .less, a => orderedWith (reflected arrays.order) .less a b
  | .lessEqual, a => orderedWith (reflected arrays.order) .lessEqual a b
  | .equal, a => if a.isArray || b.isArray then arrays.equality a b else bool <$> equal a b
  | .mod, str s => str <$> Template.fill reader s b
  | op, a => if a.isArray || b.isArray then arrays.arithmetic op a b else compute mark op a b

end Value

namespace Grid

def wordOp (op : BinaryOp) (a b : Int) : Int :=
  match op with
  | .add => a + b
  | .sub => a - b
  | .mul => a * b
  | .floorDiv => if b = 0 then 0 else Int.fdiv a b
  | _ => if b = 0 then 0 else Int.fmod a b

def doubleOp (op : BinaryOp) (x y : Float) : Float :=
  match op with
  | .add => x + y
  | .sub => x - y
  | .mul => x * y
  | .floorDiv => if y == 0 then x / y else (floatDivMod x y).1
  | _ => if y == 0 then 0.0 / 0.0 else (floatDivMod x y).2

/-- The name of an arithmetic operator on grids. -/
def arithmeticName : BinaryOp → String
  | .add => "add"
  | .sub => "subtract"
  | .mul => "multiply"
  | .floorDiv => "floor_divide"
  | _ => "remainder"

def orderName : OrderOp → String
  | .less => "less"
  | .lessEqual => "less_equal"
  | .greater => "greater"
  | .greaterEqual => "greater_equal"

/-- The class of an operand's elements; plain numbers have classes of their own. -/
def className (x : Operand) : String :=
  let name := match x.plain, x.grid.dtype with
    | true, .float64 => "_PyFloatDType"
    | true, _ => "_PyLongDType"
    | _, .bool => "BoolDType"
    | _, .int64 => "Int64DType"
    | _, .uint64 => "UInt64DType"
    | _, .float64 => "Float64DType"
    | _, .text _ => "StrDType"
    | _, .object => "ObjectDType"
  s!"<class 'numpy.dtypes.{name}'>"

/-- How an element type is shown by itself. -/
def dtypeShown : DType → String
  | .text width => s!"dtype('<U{width}')"
  | .object => "dtype('O')"
  | d => s!"dtype('{dtypeName d}')"

/-- The type of what an arithmetic operator makes of elements of two types. -/
def resultType (op : BinaryOp) (left right : DType) : Except Fault DType :=
  let noLoop : Except Fault DType :=
    .error (.grid (.noLoop (arithmeticName op) (dtypeShown left) (dtypeShown right)))
  match join left right with
  | .object => .ok .object
  | .text _ =>
      match op, left, right with
      | .add, .text m, .text n => .ok (.text (m + n))
      | .add, _, _ | .sub, _, _ => noLoop
      | .mul, .text _, .int64 | .mul, .text _, .uint64 | .mul, .int64, .text _
      | .mul, .uint64, .text _ => .error (.type .repeatedTexts)
      | .mul, _, _ => noLoop
      | op, _, _ => .error (.type (.notElements (arithmeticName op)))
  | .bool =>
      match op with
      | .add | .mul => .ok .bool
      | .sub => .error (.type .booleanSubtraction)
      | _ => .ok .int64
  | d => .ok d

/-- The word of an element. A plain integer has to be in the range of the words that it meets. -/
def wordOf (dtype : DType) (plain : Bool) (v : Value) : Except Fault Int := do
  let i ← toInteger v
  if plain then fitWord dtype i else return i

section

variable (objects : BinaryOp → Value → Value → Except Fault Value)

/-- An arithmetic operator on two elements, whose result has type `dtype`. -/
def elementOp (op : BinaryOp) (dtype : DType) (x y : Operand) (a b : Value) : Except Fault Value := do
  match dtype with
  | .object => objects op a b
  | .text _ => return .str (elementText a ++ elementText b)
  | .float64 => return .float 0 (doubleOp op (← toDouble a) (← toDouble b))
  | .bool => return .bool (wordOp op (← toInteger a) (← toInteger b) != 0)
  | dtype =>
      return .int (wrap dtype (wordOp op (← wordOf dtype x.plain a) (← wordOf dtype y.plain b)))

/-- An arithmetic operator on two values of which one is an array. -/
def arithmetic (op : BinaryOp) (a b : Value) : Except Fault Grid := do
  let (x, y) ← operands a b
  let dtype ← resultType op x.grid.dtype y.grid.dtype
  let (shape, pairs) ← meeting x.grid y.grid
  return ⟨dtype, shape, ← pairs.mapM fun (p, q) => elementOp objects op dtype x y p q⟩

end

section

variable (objects : OrderOp → Value → Value → Except Fault Value)

/-- The order of two elements. -/
def elementOrder (op : OrderOp) (left right : DType) (a b : Value) : Except Fault Bool := do
  match join left right with
  | .object => (← objects op a b).truth
  | .text _ => return op.texts (elementText a) (elementText b)
  | _ =>
      if left = .float64 ∨ right = .float64 then
        return op.numbers (.float (← toDouble a)) (.float (← toDouble b))
      else return op.numbers (.int (← toInteger a)) (.int (← toInteger b))

/-- Whether elements of two types have an order. -/
def checkOrder (op : OrderOp) (x y : Operand) : Except Fault Unit :=
  match x.grid.dtype, y.grid.dtype with
  | .object, _ | _, .object | .text _, .text _ => .ok ()
  | .text _, _ | _, .text _ => .error (.grid (.noLoop (orderName op) (className x) (className y)))
  | _, _ => .ok ()

/-- The order of two values of which one is an array. -/
def order (op : OrderOp) (a b : Value) : Except Fault Grid := do
  let (x, y) ← operands a b
  checkOrder op x y
  let (shape, pairs) ← meeting x.grid y.grid
  let truths ← pairs.mapM fun (p, q) => elementOrder objects op x.grid.dtype y.grid.dtype p q
  return ⟨.bool, shape, truths.map .bool⟩

end

/-- The equality of two values of which one is an array, element by element. -/
def equality (a b : Value) : Except Fault Grid := do
  let (x, y) ← operands a b
  let (shape, truths) ← equalities Value.equal x.grid y.grid
  return ⟨.bool, shape, truths.map .bool⟩

/-- A grid that is the result of an operator. -/
def result (mark : Nat) (g : Grid) : Value :=
  match g.toValue with
  | .array _ dtype shape data => .array mark dtype shape data
  | v => v

end Grid

namespace Value

section

variable (reader : Template.Reader)

/-- Operators on values whose arrays are nested at most `depth` deep. -/
def operateAt : Nat → Nat → BinaryOp → Value → Value → Except Fault Value
  | 0, mark => operateWith
      ⟨fun op a b => unsupported op a b, fun _ a b => unsupported .less a b,
        fun a b => unsupported .equal a b⟩ reader mark
  | depth + 1, mark => operateWith
      ⟨fun op a b => Grid.result mark <$> Grid.arithmetic (operateAt depth 0) op a b,
        orderAt depth mark,
        fun a b => Grid.result mark <$> Grid.equality a b⟩ reader mark
where
  /-- The order of values of which one is an array, with arrays inside them nested `depth` deep. -/
  orderAt : Nat → Nat → OrderOp → Value → Value → Except Fault Value
  | 0, mark, op, a, b =>
      Grid.result mark <$> Grid.order (orderedWith fun _ a b => unsupported .less a b) op a b
  | depth + 1, mark, op, a, b =>
      Grid.result mark <$> Grid.order (orderedWith (reflected (orderAt depth 0))) op a b

/-- An operator on two values. -/
def operate (mark : Nat) (op : BinaryOp) (a b : Value) : Except Fault Value :=
  operateAt reader (max a.arrayDepth b.arrayDepth) mark op a b

end

end Value

namespace Store

/-- How values show in templates. -/
def reader (s : Store) : Template.Reader :=
  ⟨fun v => (s.view v).showPlain s.frame, fun v => (s.view v).showWith s.frame,
    fun mapping key => mapping.itemAt s.frame key⟩

end Store

namespace Run

/-- Whether an operator joins or repeats what it is given and leaves the members alone. -/
def isShallow (op : BinaryOp) (a b : Value) : Bool :=
  (op == .add || op == .mul) && !a.isArray && !b.isArray

/-- An operator on two values as they are now. -/
def binary (op : BinaryOp) (a b : Value) : Run Value := do
  let given (v : Value) : Run Value := if isShallow op a b then head v else now v
  let a ← given a
  let b ← given b
  let mark ← fresh
  let s ← get
  ofExcept (a.operate s.reader mark op b)

/-! Adding one in place. -/

/-- The fault of adding to a value in place. -/
def addedInPlace (f : Fault) : Fault :=
  match f with
  | .type (.unsupported _ left right) => .type (.unsupported "+=" left right)
  | f => f

/-- An array with one added to every element, which has to fit the type of its elements. -/
def incrementArray (mark : Nat) (dtype : DType) (shape : List Nat) (data : List Value) :
    Run Value := do
  let s ← get
  let a := Value.array mark dtype shape data
  match ← ofExcept (Grid.arithmetic (fun op a b => a.operate s.reader 0 op b) .add a (.int 1)) with
  | ⟨result, _, items⟩ =>
      if result = dtype ∨ dtype = .object then
        modify fun s => { s with contents := s.contents.assign mark items }
        return .array mark dtype shape items
      else fault (.grid (.cannotStore "add" (Grid.dtypeName result) (Grid.dtypeName dtype)))

/-- A value with one added to it; an array is changed itself. -/
def increment (v : Value) : Run Value := do
  match ← now v with
  | .list .. => fault (.type (.notIterable Kind.int.name))
  | .array mark dtype shape data => incrementArray mark dtype shape data
  | v => recover (binary .add v (.int 1)) fun f => fault (addedInPlace f)

end Run

end Knot
