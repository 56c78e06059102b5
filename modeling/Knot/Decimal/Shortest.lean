import Knot.Decimal.Binary64

/-!
The shortest decimal that reads back as a given double: of the grids with one, two, three … digits
the first that has a point in the interval of reals rounding to the double, and on it the point
nearest to the double. Positional between 10⁻⁴ and 10¹⁶, with an exponent outside.
-/

namespace Knot.Decimal

/-- A positive real `num / den`. -/
structure Ratio where
  num : Nat
  den : Nat

/-- The number of decimal digits before the point of `r`; zero or negative below one tenth. -/
def Ratio.magnitude (r : Ratio) : Int :=
  let guess : Int := (Nat.toDigits 10 r.num).length - (Nat.toDigits 10 r.den).length
  let reaches (k : Int) : Bool :=
    if 0 ≤ k then r.den * Nat.pow 10 k.toNat ≤ r.num else r.den ≤ r.num * Nat.pow 10 (-k).toNat
  if reaches guess then guess + 1 else guess

/-- A double and the reals that round to it. -/
structure Interval where
  value : Ratio
  low : Ratio
  high : Ratio
  closed : Bool

def Interval.of (m : Nat) (e : Int) : Interval :=
  let up := Nat.pow 2 (e.toNat + 2)
  let down := Nat.pow 2 (-e).toNat * 4
  let scale (n : Nat) : Ratio := if 0 ≤ e then ⟨n * up / 4, 4⟩ else ⟨n, down⟩
  let gapBelow := if m == Binary64.hiddenBit && -1074 < e then 1 else 2
  ⟨scale (4 * m), scale (4 * m - gapBelow), scale (4 * m + 2), m % 2 == 0⟩

def Interval.holds (i : Interval) (r : Ratio) : Bool :=
  let above := compare (i.low.num * r.den) (r.num * i.low.den)
  let below := compare (r.num * i.high.den) (i.high.num * r.den)
  if i.closed then above != .gt && below != .gt else above == .lt && below == .lt

/-- The point `q` of the grid of step `10 ^ k`. -/
def gridPoint (q : Nat) (k : Int) : Ratio :=
  if 0 ≤ k then ⟨q * Nat.pow 10 k.toNat, 1⟩ else ⟨q, Nat.pow 10 (-k).toNat⟩

/-- Of the points of the grid of step `10 ^ k` beside the value the nearer one that reads back. -/
def onGrid? (i : Interval) (k : Int) : Option Nat :=
  let num := i.value.num * (if k < 0 then Nat.pow 10 (-k).toNat else 1)
  let den := i.value.den * (if 0 ≤ k then Nat.pow 10 k.toNat else 1)
  let q := num / den
  let rest := num % den
  let up := compare (2 * rest) den
  match i.holds (gridPoint q k), i.holds (gridPoint (q + 1) k) with
  | true, true => some (if up == .gt || (up == .eq && q % 2 == 1) then q + 1 else q)
  | true, false => some q
  | false, true => some (q + 1)
  | false, false => none

/-- The first of the grids with `count`, `count + 1`, … digits that has a point reading back. -/
def firstGrid (i : Interval) (magnitude : Int) : Nat → Nat → Nat × Int
  | 0, count => (i.value.num / i.value.den, magnitude - count)
  | tries + 1, count =>
      match onGrid? i (magnitude - count) with
      | some q => (q, magnitude - count)
      | none => firstGrid i magnitude tries (count + 1)

/-- The digits `d₁d₂…` and the place of the point: the value is `0.d₁d₂… · 10 ^ place`. -/
structure Digits where
  digits : List Char
  place : Int

def shortest (m : Nat) (e : Int) : Digits :=
  let i := Interval.of m e
  let (q, k) := firstGrid i i.value.magnitude 17 1
  let digits := Nat.toDigits 10 q
  ⟨(digits.reverse.dropWhile (· == '0')).reverse, digits.length + k⟩

/-- Digits with the point at its place and at least one digit on each side of it. -/
def positional (d : Digits) : List Char :=
  if d.place ≤ 0 then '0' :: '.' :: (List.replicate (-d.place).toNat '0' ++ d.digits)
  else
    let whole := d.digits.take d.place.toNat
    let rest := d.digits.drop d.place.toNat
    whole ++ List.replicate (d.place.toNat - d.digits.length) '0' ++
      '.' :: (if rest.isEmpty then ['0'] else rest)

/-- An exponent with its sign and at least two digits. -/
def exponentText (n : Int) : List Char :=
  let digits := Nat.toDigits 10 n.natAbs
  'e' :: (if n < 0 then '-' else '+') :: (if digits.length < 2 then '0' :: digits else digits)

def scientific (d : Digits) : List Char :=
  match d.digits with
  | [] => ['0']
  | [c] => c :: exponentText (d.place - 1)
  | c :: rest => c :: '.' :: (rest ++ exponentText (d.place - 1))

def unsignedText (m : Nat) (e : Int) : List Char :=
  if m == 0 then ['0', '.', '0']
  else
    let d := shortest m e
    if -4 < d.place ∧ d.place ≤ 16 then positional d else scientific d

/-- The shortest text that reads back as the double. -/
def floatText (x : Float) : String :=
  match Binary64.ofFloat x with
  | .nan => "nan"
  | .infinite negative => if negative then "-inf" else "inf"
  | .finite negative m e =>
      String.ofList (if negative then '-' :: unsignedText m e else unsignedText m e)

end Knot.Decimal
