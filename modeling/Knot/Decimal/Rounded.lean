import Knot.Decimal.Shortest

/-!
Decimals of a given length: a double, taken exactly, rounded to a number of places or of digits. A
tie goes to the even neighbour.
-/

namespace Knot.Decimal

/-- `m · 2 ^ e` divided by `10 ^ k`, rounded to a whole number. -/
def roundedQuotient (m : Nat) (e k : Int) : Nat :=
  let num := m * Nat.pow 2 e.toNat * Nat.pow 10 (-k).toNat
  let den := Nat.pow 2 (-e).toNat * Nat.pow 10 k.toNat
  let q := num / den
  match compare (2 * (num % den)) den with
  | .lt => q
  | .gt => q + 1
  | .eq => if q % 2 = 0 then q else q + 1

/-- The digits before and behind the point of `m · 2 ^ e` rounded to `places` places. All places
behind the first `-e` are zeros. -/
def withPlaces (places m : Nat) (e : Int) : List Char × List Char :=
  let exact := min places (-e).toNat
  let digits := Nat.toDigits 10 (roundedQuotient m e (-exact))
  let digits := List.replicate (exact + 1 - digits.length) '0' ++ digits
  let (whole, fraction) := digits.splitAt (digits.length - exact)
  (whole, fraction ++ List.replicate (places - exact) '0')

/-- The first `count` digits of `m · 2 ^ e`, rounded. Zero has its point behind its first digit. -/
def withDigits (count m : Nat) (e : Int) : Digits :=
  if m = 0 then ⟨List.replicate count '0', 1⟩
  else
    let place := (Ratio.mk (m * Nat.pow 2 e.toNat) (Nat.pow 2 (-e).toNat)).magnitude
    let exact := min count (place + (-e).toNat).toNat
    let digits := Nat.toDigits 10 (roundedQuotient m e (place - exact))
    ⟨digits.take exact ++ List.replicate (count - exact) '0', place + (digits.length - exact : Nat)⟩

theorem withPlaces_snd_length (places m : Nat) (e : Int) :
    (withPlaces places m e).2.length = places := by
  simp only [withPlaces, List.splitAt_eq, List.length_drop, List.length_append,
    List.length_replicate]
  omega

end Knot.Decimal
