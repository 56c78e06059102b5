/-!
Double-precision numbers taken apart into a sign, a whole number and a power of two, so that they
can be compared with integers exactly and divided without rounding.
-/

namespace Knot

/-- A double: `± m · 2 ^ e`, an infinity, or not a number. -/
inductive Binary64 where
  | finite (negative : Bool) (m : Nat) (e : Int)
  | infinite (negative : Bool)
  | nan
  deriving DecidableEq, Repr

namespace Binary64

/-- The value of the leading digit of a fraction, which the bits leave out. -/
def hiddenBit : Nat := 4503599627370496

/-- The value of the bit for the sign. -/
def signBit : Nat := 9223372036854775808

def ofBits (bits : UInt64) : Binary64 :=
  let negative := bits.toNat / signBit == 1
  let exponent : Nat := bits.toNat / hiddenBit % 2048
  let fraction : Nat := bits.toNat % hiddenBit
  if exponent == 2047 then (if fraction == 0 then .infinite negative else .nan)
  else if exponent == 0 then .finite negative fraction (-1074)
  else .finite negative (fraction + hiddenBit) ((exponent : Int) - 1075)

def ofFloat (x : Float) : Binary64 := ofBits x.toBits

/-- The integer nearest to a finite number on the side of zero. -/
def truncate? : Binary64 → Option Int
  | .finite negative m e =>
      let size : Nat := if 0 ≤ e then m * Nat.pow 2 e.toNat else m / Nat.pow 2 (-e).toNat
      some (if negative then -size else size)
  | _ => none

/-- The order of an integer and a number, with nothing rounded. -/
def compareInt (i : Int) : Binary64 → Option Ordering
  | .nan => none
  | .infinite negative => some (if negative then .gt else .lt)
  | .finite negative m e =>
      let m : Int := if negative then -m else m
      some (if 0 ≤ e then compare i (m * Nat.pow 2 e.toNat) else compare (i * Nat.pow 2 (-e).toNat) m)

end Binary64

/-- The double nearest to an integer, ties to even; none where that is an infinity. -/
def nearestFloat? (i : Int) : Option Float :=
  let x := Float.ofScientific i.natAbs false 0
  if x.isInf then none else some (if i < 0 then -x else x)

/-- The remainder of `x / y` that has the sign of `x`, exact. -/
def floatRemainder (x y : Float) : Float :=
  match Binary64.ofFloat x, Binary64.ofFloat y with
  | .finite negative m e, .finite _ m' e' =>
      if m' == 0 then 0.0 / 0.0
      else
        let low := min e e'
        let r := (m * Nat.pow 2 (e - low).toNat) % (m' * Nat.pow 2 (e' - low).toNat)
        let size := (Float.ofScientific r false 0).scaleB low
        if negative then -size else size
  | .finite .., .infinite _ => x
  | _, _ => 0.0 / 0.0

/-- Floored quotient and the remainder that has the divisor's sign. -/
def floatDivMod (x y : Float) : Float × Float :=
  let r := floatRemainder x y
  let q := (x - r) / y
  let (q, r) :=
    if r != 0 then (if (y < 0) != (r < 0) then (q - 1, r + y) else (q, r))
    else (q, if y < 0 then -0.0 else 0.0)
  let q :=
    if q != 0 then
      let low := q.floor
      if q - low > 0.5 then low + 1 else low
    else if (x / y).toBits >>> 63 == 1 then -0.0 else 0.0
  (q, r)

end Knot
