import Knot.Text.Blank
import Knot.Text.Digit

/-!
Numerals: digits of any script with single underscores between them, a sign in front, margins
around. A whole number is only read, and only written, if it has no more digits than the limit.
-/

namespace Knot.Text

/-- The most digits that a whole number may have where it is read or written. -/
def digitLimit : Nat := 4300

/-- Digits with single underscores between them, up to the first character that is neither, and the
rest; none where an underscore, or the start, has no digit behind it. -/
def spanNumeral (digit? : Char → Option Nat) (read : List Nat) (afterDigit : Bool) :
    List Char → Option (List Nat × List Char)
  | [] => if afterDigit then some (read.reverse, []) else none
  | c :: rest =>
      match digit? c with
      | some d => spanNumeral digit? (d :: read) true rest
      | none =>
          if !afterDigit then none
          else if c = '_' then spanNumeral digit? read false rest
          else some (read.reverse, c :: rest)

/-- The number that digits stand for. -/
def digitsNat (digits : List Nat) : Nat := digits.foldl (fun n d => 10 * n + d) 0

/-- The sign in front of a numeral, and the rest. -/
def splitSign : List Char → Bool × List Char
  | '-' :: rest => (true, rest)
  | '+' :: rest => (false, rest)
  | s => (false, s)

/-- What a text holds where a whole number is expected. -/
inductive IntegerReading where
  | value (i : Int)
  | tooLong (digits : Nat)
  | malformed
  deriving DecidableEq, Repr

/-- Reads a whole number. Too many digits are refused before what follows them is looked at. -/
def readInteger (s : String) : IntegerReading :=
  let (negative, body) := splitSign (trimMargin s.toList)
  match spanNumeral digitValue? [] false body with
  | none => .malformed
  | some (digits, rest) =>
      if digitLimit < digits.length then .tooLong digits.length
      else if rest.isEmpty then
        .value (if negative then -(digitsNat digits : Int) else digitsNat digits)
      else .malformed

/-- The ASCII digit with the value of a digit of any script; every other character stays. -/
def asciiForm (c : Char) : Char :=
  match digitValue? c with
  | some d => Char.ofNat (48 + d)
  | none => c

/-- The digits in front of a text, without the underscores between them. -/
def spanDigits (afterDigit : Bool) : List Char → List Nat × List Char
  | '_' :: c :: rest =>
      match asciiDigit? c with
      | some d =>
          if afterDigit then
            let (digits, tail) := spanDigits true rest
            (d :: digits, tail)
          else ([], '_' :: c :: rest)
      | none => ([], '_' :: c :: rest)
  | c :: rest =>
      match asciiDigit? c with
      | some d =>
          let (digits, tail) := spanDigits true rest
          (d :: digits, tail)
      | none => ([], c :: rest)
  | [] => ([], [])

/-- A power of ten behind the letter `e`. -/
def exponent? : List Char → Option Int
  | [] => some 0
  | c :: rest =>
      if c = 'e' ∨ c = 'E' then
        let (negative, digits) := splitSign rest
        match spanDigits false digits with
        | ([], _) => none
        | (ds, []) => some (if negative then -(digitsNat ds : Int) else digitsNat ds)
        | _ => none
      else none

/-- A number without its sign: digits, a point and an exponent, or the name of a value that is not
finite. -/
def unsignedFloat? (s : List Char) : Option Float :=
  match String.ofList (s.map Char.toLower) with
  | "inf" | "infinity" => some (1.0 / 0.0)
  | "nan" => some (0.0 / 0.0)
  | _ =>
      let (whole, rest) := spanDigits false s
      let (fraction, rest) :=
        match rest with
        | '.' :: rest => spanDigits false rest
        | rest => ([], rest)
      if whole.isEmpty && fraction.isEmpty then none
      else
        (exponent? rest).map fun e =>
          let m := digitsNat (whole ++ fraction)
          let e : Int := max (-5000) (min 5000 (e - fraction.length))
          if 0 ≤ e then Float.ofScientific m false e.toNat else Float.ofScientific m true (-e).toNat

def float? (s : String) : Option Float :=
  let (negative, body) := splitSign ((trimMargin s.toList).map asciiForm)
  (unsignedFloat? body).map fun x => if negative then -x else x

end Knot.Text
