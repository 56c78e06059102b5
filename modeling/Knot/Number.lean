import Knot.Decimal.Binary64
import Knot.Fault

/-!
Numbers: integers of any size and doubles. Truth values count as 0 and 1. Two integers make an
integer, any other two a double; numbers are compared exactly, an integer with a double included.
-/

namespace Knot

inductive Number where
  | int (i : Int)
  | float (x : Float)

def Value.number? : Value → Option Number
  | .bool b => some (.int b.toNat)
  | .int i => some (.int i)
  | .float _ x => some (.float x)
  | _ => .none

namespace Number

def isZero : Number → Bool
  | int i => i == 0
  | float x => x == 0

def equal : Number → Number → Bool
  | int a, int b => a == b
  | float a, float b => a == b
  | int a, float b => Binary64.compareInt a (.ofFloat b) == some .eq
  | float a, int b => Binary64.compareInt b (.ofFloat a) == some .eq

def less : Number → Number → Bool
  | int a, int b => a < b
  | float a, float b => a < b
  | int a, float b => Binary64.compareInt a (.ofFloat b) == some .lt
  | float a, int b => Binary64.compareInt b (.ofFloat a) == some .gt

def lessEqual : Number → Number → Bool
  | int a, int b => a ≤ b
  | float a, float b => a <= b
  | a, b => less a b || equal a b

def toFloat : Number → Except Fault Float
  | float x => .ok x
  | int i =>
      match nearestFloat? i with
      | some x => .ok x
      | none => .error (.overflow .tooLargeForFloat)

/-- An operation on two numbers, given on integers and on doubles. -/
def lift (ints : Int → Int → Except Fault Int) (floats : Float → Float → Except Fault Float)
    (a b : Number) : Except Fault Number :=
  match a, b with
  | int a, int b => int <$> ints a b
  | a, b => do
      let x ← a.toFloat
      let y ← b.toFloat
      return float (← floats x y)

def add : Number → Number → Except Fault Number :=
  lift (fun a b => .ok (a + b)) fun x y => .ok (x + y)

def sub : Number → Number → Except Fault Number :=
  lift (fun a b => .ok (a - b)) fun x y => .ok (x - y)

def mul : Number → Number → Except Fault Number :=
  lift (fun a b => .ok (a * b)) fun x y => .ok (x * y)

/-- The quotient rounded down. -/
def floorDiv : Number → Number → Except Fault Number :=
  lift
    (fun a b =>
      if b == 0 then .error (.zeroDivision .integerQuotient) else .ok (Int.fdiv a b))
    fun x y =>
      if y == 0 then .error (.zeroDivision .floatQuotient) else .ok (floatDivMod x y).1

/-- The remainder that goes with the quotient rounded down; it has the divisor's sign. -/
def mod : Number → Number → Except Fault Number :=
  lift
    (fun a b =>
      if b == 0 then .error (.zeroDivision .integerRemainder) else .ok (Int.fmod a b))
    fun x y =>
      if y == 0 then .error (.zeroDivision .floatRemainder) else .ok (floatDivMod x y).2

theorem add_int (a b : Int) : add (int a) (int b) = .ok (int (a + b)) := rfl

theorem sub_int (a b : Int) : sub (int a) (int b) = .ok (int (a - b)) := rfl

theorem mul_int (a b : Int) : mul (int a) (int b) = .ok (int (a * b)) := rfl

end Number

end Knot
