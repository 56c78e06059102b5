import Knot.Number
import Knot.Text.LowerCase
import Knot.Text.Numeral
import Knot.Word

/-!
The settings of the demonstration: what each field is called, what it is when nobody sets it, which
raw values stand for its values, and the floor that a value must not be below.
-/

namespace Knot

structure Settings where
  recursionLimit : Int
  exhaustionHeadroom : Int
  trace : Bool
  demoN : Int
  deriving DecidableEq, Repr

namespace Settings

inductive Field where
  | recursionLimit | exhaustionHeadroom | trace | demoN
  deriving DecidableEq, Repr

namespace Field

/-- The fields in the order in which they are declared and judged. -/
def all : List Field := [recursionLimit, exhaustionHeadroom, trace, demoN]

def name : Field → String
  | recursionLimit => "recursion_limit"
  | exhaustionHeadroom => "exhaustion_headroom"
  | trace => "trace"
  | demoN => "demo_n"

theorem mem_all (field : Field) : field ∈ all := by cases field <;> decide

end Field

/-- What is wrong with a raw value. -/
inductive Problem where
  | unreadableInteger | tooManyDigits | fraction | notFinite | noInteger
  | unreadableFlag | noFlag
  | belowFloor (rule : String)
  | unexpected
  deriving DecidableEq, Repr

namespace Problem

def kind : Problem → String
  | unreadableInteger => "int_parsing"
  | tooManyDigits => "int_parsing_size"
  | fraction => "int_from_float"
  | notFinite => "finite_number"
  | noInteger => "int_type"
  | unreadableFlag => "bool_parsing"
  | noFlag => "bool_type"
  | belowFloor _ => "value_error"
  | unexpected => "extra_forbidden"

def message : Problem → String
  | unreadableInteger => "Input should be a valid integer, unable to parse string as an integer"
  | tooManyDigits => "Unable to parse input string as an integer, exceeded maximum size"
  | fraction => "Input should be a valid integer, got a number with a fractional part"
  | notFinite => "Input should be a finite number"
  | noInteger => "Input should be a valid integer"
  | unreadableFlag => "Input should be a valid boolean, unable to interpret input"
  | noFlag => "Input should be a valid boolean"
  | belowFloor rule => "Value error, " ++ rule
  | unexpected => "Extra inputs are not permitted"

end Problem

/-- A field, or the name of something that is no field, and what is wrong with it. -/
structure Complaint where
  name : String
  problem : Problem
  deriving DecidableEq, Repr

/-! Raw values. -/

/-- A numeral without the zeros in front of it, and without what else may stand among them: single
zeros and the zero in front of a point stay. -/
def dropZeros (s : List Char) : Option (List Char) :=
  match s with
  | '0' :: rest => go '0' rest
  | c :: _ => if ('1' ≤ c ∧ c ≤ '9') ∨ c = '-' then some s else none
  | [] => none
where
  go (last : Char) : List Char → Option (List Char)
    | [] => some [last]
    | c :: rest =>
        if c = '0' ∨ c = '_' then go c rest
        else if ('1' ≤ c ∧ c ≤ '9') ∨ c = '-' then some (c :: rest)
        else if c = '.' then some (last :: c :: rest)
        else none

/-- Drops a point with nothing but zeros behind it. -/
def dropZeroPlaces (s : List Char) : List Char :=
  match s.dropWhile (· != '.') with
  | '.' :: '0' :: zeros => if zeros.all (· == '0') then s.takeWhile (· != '.') else s
  | _ => s

/-- Whether every underscore stands between other characters. -/
def separates (s : List Char) : Bool :=
  s.head? != some '_' && s.getLast? != some '_' && (s.zip s.tail).all (· != ('_', '_'))

/-- Drops the underscores, if they separate. -/
def dropSeparators (s : List Char) : List Char := if separates s then s.filter (· != '_') else s

/-- Drops a plus sign, unless a minus sign is behind it. -/
def dropPlus : List Char → List Char
  | '+' :: '-' :: rest => '+' :: '-' :: rest
  | '+' :: rest => rest
  | s => s

/-- A text cleaned of margins, a plus sign, zeros in front, zero places and separators. -/
def cleanNumeral (s : String) : Option (List Char) :=
  (dropZeros (dropPlus (Text.trimMargin s.toList))).map fun s => dropSeparators (dropZeroPlaces s)

/-- A natural number in ASCII digits, without zeros in front. -/
def naturalOf? (s : List Char) : Option Nat :=
  match s, s.mapM Text.asciiDigit? with
  | [], _ => none
  | '0' :: _ :: _, _ => none
  | _, digits => digits.map Text.digitsNat

/-- The whole number that a text stands for. -/
def integerOfText (s : String) : Except Problem Int :=
  match cleanNumeral s with
  | none => .error .unreadableInteger
  | some s =>
      if Text.digitLimit < s.length then .error .tooManyDigits
      else
        let n := match s with
          | '-' :: rest => (naturalOf? rest).map fun n => -(n : Int)
          | s => (naturalOf? s).map fun n => (n : Int)
        match n with
        | some i => .ok i
        | none => .error .unreadableInteger

def integerOfFloat (x : Float) : Except Problem Int :=
  match Binary64.ofFloat x with
  | .finite _ m e =>
      if e < 0 ∧ m % Nat.pow 2 (-e).toNat ≠ 0 then .error .fraction
      else if x.abs < 9223372036854775808.0 then .ok ((Binary64.ofFloat x).truncate?.getD 0)
      else .error .tooManyDigits
  | _ => .error .notFinite

/-- The integer that a raw value stands for. -/
def readInteger (v : Value) : Except Problem Int :=
  match v with
  | .bool b => .ok b.toNat
  | .int i => .ok i
  | .float _ x => integerOfFloat x
  | .str s => integerOfText s
  | _ => .error .noInteger

def flagOfText? (s : String) : Option Bool :=
  let word := Text.lowerCase s
  if ["0", "off", "f", "false", "n", "no"].contains word then some false
  else if ["1", "on", "t", "true", "y", "yes"].contains word then some true
  else none

/-- The truth value that a number stands for. One that is no 64-bit word is no flag at all. -/
def flagOfInteger (i : Int) : Except Problem Bool :=
  if i = 0 then .ok false
  else if i = 1 then .ok true
  else if Word.isSigned i then .error .unreadableFlag
  else .error .noFlag

def flagOfFloat (x : Float) : Except Problem Bool :=
  match integerOfFloat x with
  | .ok i => flagOfInteger i
  | .error _ => .error .noFlag

/-- The truth value that a raw value stands for. -/
def readFlag (v : Value) : Except Problem Bool :=
  match v with
  | .bool b => .ok b
  | .int i => flagOfInteger i
  | .float _ x => flagOfFloat x
  | .str s =>
      match flagOfText? s with
      | some b => .ok b
      | none => .error .unreadableFlag
  | _ => .error .noFlag

/-- A value that is at least the floor; `rule` says so. -/
def atLeast (floor : Int) (rule : String) (i : Int) : Except Problem Int :=
  if i < floor then .error (.belowFloor rule) else .ok i

def readRecursionLimit (v : Value) : Except Problem Int :=
  readInteger v >>= atLeast 1000 "recursion_limit must be at least 1000"

def readExhaustionHeadroom (v : Value) : Except Problem Int :=
  readInteger v >>= atLeast 50 "exhaustion_headroom must be at least 50"

def readDemoN (v : Value) : Except Problem Int :=
  readInteger v >>= atLeast 0 "demo_n must be non-negative"

theorem atLeast_eq_ok_iff {floor i j : Int} {rule : String} :
    atLeast floor rule i = .ok j ↔ j = i ∧ floor ≤ i := by
  unfold atLeast
  split <;> simp <;> omega

end Settings

end Knot
