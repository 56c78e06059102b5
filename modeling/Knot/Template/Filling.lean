import Knot.Decimal.Written
import Knot.Grid.Selection
import Knot.Template.Place
import Knot.Word

/-!
Filling templates. The places of a template take the members of a tuple one by one, or one value of
any other kind; a place with a key takes what a mapping has under it. Every value has to be used up,
unless it is a mapping.
-/

namespace Knot.Template

/-- How the values of a run show, and what a mapping has under a key. -/
structure Reader where
  plain : Value → Except Fault String
  shown : Value → Except Fault String
  item : Value → Value → Except Fault Value

/-- The values that are left for the places behind, and the mapping that keys are looked up in. -/
structure Supply where
  mapping : Option Value
  left : List Value

/-- Whether places can look up keys in a value. -/
def isMapping : Value → Bool
  | .list .. | .dict .. | .range .. | .array .. | .environment .. => true
  | _ => false

def Supply.of : Value → Supply
  | .tuple _ items => ⟨none, items⟩
  | v => ⟨if isMapping v then some v else none, [v]⟩

def Supply.take (s : Supply) : Except Fault (Value × Supply) :=
  match s.left with
  | v :: left => .ok (v, { s with left })
  | [] => .error (.type (.template .tooFew))

/-- More characters than a text can have in memory. -/
def lengthLimit : Nat := 4294967296

/-! How one value is written. -/

/-- A written value: the sign and the mark of a number, which zeros are filled in behind, and the
rest. -/
structure Written where
  sign : List Char := []
  mark : List Char := []
  body : List Char

/-- The written value in a field of some width. -/
def Written.within (flags : Flags) (zeros : Bool) (width : Nat) (w : Written) : List Char :=
  let head := w.sign ++ w.mark
  let room := width - (head.length + w.body.length)
  if flags.left then head ++ w.body ++ List.replicate room ' '
  else if zeros then head ++ List.replicate room '0' ++ w.body
  else List.replicate room ' ' ++ head ++ w.body

def signOf (flags : Flags) (negative : Bool) : List Char :=
  if negative then ['-'] else if flags.sign then ['+'] else if flags.blank then [' '] else []

/-- Digits with zeros in front, up to a least number. -/
def atLeast (count : Nat) (digits : List Char) : List Char :=
  List.replicate (count - digits.length) '0' ++ digits

/-- The integer of an array for a decimal place: of one that has no integer, the place says that it
is no number. -/
def wholeElement (letter : Char) (v : Value) : Except Fault Int :=
  match Grid.toInteger v with
  | .error (.type _) => .error (.type (.template (.notNumber letter v.operandName)))
  | r => r

/-- The whole number of a value for a decimal place: fractions are cut off. -/
def wholeNumber (letter : Char) (v : Value) : Except Fault Int :=
  match v with
  | .bool _ | .int _ | .float .. => Grid.toInteger v
  | .array .. => wholeElement letter v
  | v => .error (.type (.template (.notNumber letter v.operandName)))

/-- The integer of a value for a place with another base. -/
def properInteger (letter : Char) (v : Value) : Except Fault Int :=
  match v.index? with
  | .ok (some i) => .ok i
  | _ => .error (.type (.template (.notInteger letter v.operandName)))

def decimalDigits (i : Int) : Except Fault (List Char) :=
  if i.natAbs < Nat.pow 10 Text.digitLimit then .ok (Nat.toDigits 10 i.natAbs)
  else .error (.value .integerTooLong)

def writeInteger (p : Place) (letter : Char) (least : Nat) (v : Value) : Except Fault Written := do
  let based (base : Nat) (upper : Bool) : Except Fault Written := do
    let i ← properInteger letter v
    let digits := Nat.toDigits base i.natAbs
    return ⟨signOf p.flags (i < 0), if p.flags.marked then ['0', letter] else [],
      atLeast least (if upper then digits.map Char.toUpper else digits)⟩
  match letter with
  | 'o' => based 8 false
  | 'x' => based 16 false
  | 'X' => based 16 true
  | letter => do
      let i ← wholeNumber letter v
      return { sign := signOf p.flags (i < 0), body := atLeast least (← decimalDigits i) }

/-- The double of a value. -/
def realNumber (v : Value) : Except Fault Float :=
  match v with
  | .bool _ | .int _ | .float .. => Grid.toDouble v
  | .array _ _ [] [.none] => .error (.type (.floatArgument Kind.none.name))
  | .array .. => Grid.toDouble v
  | v => .error (.type (.template (.notReal v.operandName)))

/-- A double by the letter of its place, in lower case. -/
def doubleText (keep : Bool) (letter : Char) (precision : Nat) : Binary64 → List Char
  | .nan => ['n', 'a', 'n']
  | .infinite _ => ['i', 'n', 'f']
  | .finite _ m e =>
      match letter with
      | 'f' => Decimal.placesText keep precision m e
      | 'e' => Decimal.exponentPlacesText keep precision m e
      | _ => Decimal.digitsText keep (max 1 precision) m e

def isNegative : Binary64 → Bool
  | .finite negative .. | .infinite negative => negative
  | .nan => false

def writeDouble (p : Place) (letter : Char) (precision : Nat) (v : Value) : Except Fault Written := do
  let x := Binary64.ofFloat (← realNumber v)
  let body := doubleText p.flags.marked letter.toLower precision x
  return { sign := signOf p.flags (isNegative x),
           body := if letter.isUpper then body.map Char.toUpper else body }

/-- The character with the code point that a value stands for. -/
def writeCodePoint (v : Value) : Except Fault Written :=
  match v.index? with
  | .ok (some i) =>
      if 0 ≤ i ∧ i < 0x110000 then .ok { body := [Char.ofNat i.toNat] }
      else .error (.overflow .notCodePoint)
  | _ => .error (.type (.template .notCharacter))

def writeCharacter (v : Value) : Except Fault Written :=
  match v with
  | .str s =>
      match s.toList with
      | [c] => .ok { body := [c] }
      | _ => .error (.type (.template .notCharacter))
  | v => writeCodePoint v

/-- A text with every character but the ASCII ones escaped. -/
def asciiText (s : List Char) : List Char :=
  s.flatMap fun c =>
    if c.toNat < 0x80 then [c]
    else if c.toNat < 0x100 then '\\' :: 'x' :: Text.hexText 2 c.toNat
    else if c.toNat < 0x10000 then '\\' :: 'u' :: Text.hexText 4 c.toNat
    else '\\' :: 'U' :: Text.hexText 8 c.toNat

def writeText (precision : Option Nat) (s : List Char) : Written :=
  { body := match precision with
      | some n => s.take n
      | none => s }

/-- The fault of a letter that no place has. -/
def unknownLetter (c : Char) (position : Nat) : Fault :=
  .value (.unknownConversion (if 0x1f ≤ c.toNat ∧ c.toNat ≤ 0x7e then c else '?')
    (String.ofList (Nat.toDigits 16 c.toNat)) position)

/-- The value as a place asks for it, and whether zeros may be filled in. -/
def write (r : Reader) (p : Place) (letter : Char) (precision : Option Nat) (v : Value) :
    Except Fault (Written × Bool) := do
  match letter with
  | 's' => return (writeText precision (← r.plain v).toList, false)
  | 'r' => return (writeText precision (← r.shown v).toList, false)
  | 'a' => return (writeText precision (asciiText (← r.shown v).toList), false)
  | 'd' | 'i' | 'u' | 'o' | 'x' | 'X' =>
      return (← writeInteger p letter (precision.getD 0) v, p.flags.zero)
  | 'e' | 'E' | 'f' | 'F' | 'g' | 'G' =>
      return (← writeDouble p letter (precision.getD 6) v, p.flags.zero)
  | 'c' => return (← writeCharacter v, false)
  | letter => throw (unknownLetter letter p.position)

/-! How a place takes what it needs. -/

/-- The supply of a place: with a key, the one value that the mapping has under it. -/
def keyed (r : Reader) (key : Key) (s : Supply) : Except Fault Supply :=
  match key, s.mapping with
  | .absent, _ => .ok s
  | _, none => .error (.type (.template .noMapping))
  | .unclosed, _ => .error (.value .incompleteKey)
  | .name key, some mapping => do return { s with left := [← r.item mapping (.str key)] }

def takeInteger (s : Supply) : Except Fault (Int × Supply) := do
  match ← s.take with
  | (.int i, s) => return (i, s)
  | (.bool b, s) => return (b.toNat, s)
  | _ => throw (.type (.template .widthNotInteger))

/-- The width of a field, if it has one; with a negative one the value stands at the left of its
field. The lowest word has no opposite and is no width. -/
def takeWidth (amount : Amount) (s : Supply) : Except Fault (Option Int × Supply) := do
  match amount with
  | .unset => return (none, s)
  | .number n => return (some n, s)
  | .tooBig => throw (.value .widthTooBig)
  | .fromValues =>
      let (i, s) ← takeInteger s
      if !Word.isSigned i then throw (.overflow .tooLargeForSize)
      else return (if i = Word.lowest then none else some i, s)

def takePrecision (amount : Amount) (s : Supply) : Except Fault (Option Nat × Supply) := do
  match amount with
  | .unset => return (none, s)
  | .number n => return (some n, s)
  | .tooBig => throw (.value .precisionTooBig)
  | .fromValues =>
      let (i, s) ← takeInteger s
      if !Word.isShort i then throw (.overflow .tooLargeForLimit)
      else return (some i.toNat, s)

/-- The next value in a field. -/
def fillField (r : Reader) (p : Place) (letter : Char) (width : Option Int) (precision : Option Nat)
    (s : Supply) : Except Fault (List Char × Supply) := do
  let (v, s) ← s.take
  let isText := letter = 's' ∨ letter = 'r' ∨ letter = 'a'
  if ¬isText ∧ lengthLimit < precision.getD 0 then throw .memory
  else
    let (w, zeros) ← write r p letter precision v
    let width := width.getD 0
    if lengthLimit < width.natAbs then throw .memory
    else
      let flags := { p.flags with left := p.flags.left || width < 0 }
      return (w.within flags zeros width.natAbs, s)

def fillPlace (r : Reader) (p : Place) (s : Supply) : Except Fault (List Char × Supply) := do
  let s ← keyed r p.key s
  let (width, s) ← takeWidth p.width s
  let (precision, s) ← takePrecision p.precision s
  match p.letter with
  | none => throw (.value .incompleteTemplate)
  | some letter =>
      let (text, s) ← fillField r p letter width precision s
      if s.mapping.isSome && !s.left.isEmpty then throw (.type (.template .unused))
      else return (text, s)

def fillPieces (r : Reader) (s : Supply) : List Piece → Except Fault (List Char)
  | [] => if s.mapping.isNone && !s.left.isEmpty then .error (.type (.template .unused)) else .ok []
  | .text c :: rest => do return c :: (← fillPieces r s rest)
  | .place p :: rest => do
      let (text, s) ← fillPlace r p s
      return text ++ (← fillPieces r s rest)

/-- The template with its places filled. -/
def fill (r : Reader) (template : String) (values : Value) : Except Fault String :=
  (fun text => String.ofList text) <$>
    fillPieces r (.of values) (pieces template.length template.toList)

theorem fillPieces_text (r : Reader) (s : List Char) :
    fillPieces r ⟨none, []⟩ (s.map .text) = .ok s := by
  induction s with
  | nil => rfl
  | cons c s ih => simp [fillPieces, ih, bind, Except.bind, pure, Except.pure]

end Knot.Template
