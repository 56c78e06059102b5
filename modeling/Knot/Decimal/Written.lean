import Knot.Decimal.Rounded

/-!
Doubles written with a given number of places or digits: with a point, with an exponent, or in the
shorter of the two. The point is left out where no digit follows it, unless it is asked for.
-/

namespace Knot.Decimal

/-- Digits before and behind a point. -/
def pointed (keep : Bool) (whole fraction : List Char) : List Char :=
  if fraction.isEmpty && !keep then whole else whole ++ '.' :: fraction

/-- `m · 2 ^ e` with so many places behind the point. -/
def placesText (keep : Bool) (places m : Nat) (e : Int) : List Char :=
  pointed keep (withPlaces places m e).1 (withPlaces places m e).2

/-- The first digit, the others behind a point, and the exponent. -/
def exponentForm (keep : Bool) (d : Digits) : List Char :=
  pointed keep (d.digits.take 1) (d.digits.drop 1) ++ exponentText (d.place - 1)

/-- `m · 2 ^ e` with an exponent and so many places behind the point. -/
def exponentPlacesText (keep : Bool) (places m : Nat) (e : Int) : List Char :=
  exponentForm keep (withDigits (places + 1) m e)

/-- Digits with the point at its place. -/
def pointForm (keep : Bool) (d : Digits) : List Char :=
  if d.place ≤ 0 then
    pointed keep ['0'] (List.replicate (-d.place).toNat '0' ++ d.digits)
  else
    let place := d.place.toNat
    pointed keep (d.digits.take place ++ List.replicate (place - d.digits.length) '0')
      (d.digits.drop place)

/-- The digits without zeros at their end; at least one is kept. -/
def Digits.trimmed (d : Digits) : Digits :=
  match (d.digits.reverse.dropWhile (· == '0')).reverse with
  | [] => { d with digits := ['0'] }
  | digits => { d with digits }

/-- The first `count` digits of `m · 2 ^ e`, with an exponent where the point is far from them.
Zeros at the end are only kept with the point. -/
def digitsText (keep : Bool) (count m : Nat) (e : Int) : List Char :=
  let full := withDigits count m e
  let d := if keep then full else full.trimmed
  if -4 < d.place ∧ d.place ≤ count then pointForm keep d else exponentForm keep d

theorem placesText_zero (m : Nat) (e : Int) :
    placesText false 0 m e = (withPlaces 0 m e).1 := by
  have h : (withPlaces 0 m e).2 = [] := List.eq_nil_of_length_eq_zero (withPlaces_snd_length 0 m e)
  simp [placesText, pointed, h]

end Knot.Decimal
