/-!
Machine words: the integers that 64 bits hold, with a sign or without, and those that 32 bits hold
with a sign. An integer that is none wraps around.
-/

namespace Knot.Word

/-- The first integer above the signed words of 64 bits. -/
def signedEnd : Int := 9223372036854775808

/-- The first integer above the words of 64 bits without a sign. -/
def unsignedEnd : Int := 18446744073709551616

/-- The first integer above the signed words of 32 bits. -/
def shortEnd : Int := 2147483648

/-- The lowest signed word. -/
def lowest : Int := -signedEnd

def isSigned (i : Int) : Bool := -signedEnd ≤ i && i < signedEnd

def isUnsigned (i : Int) : Bool := 0 ≤ i && i < unsignedEnd

def isShort (i : Int) : Bool := -shortEnd ≤ i && i < shortEnd

/-- The word without a sign that differs from an integer by a multiple of their number. -/
def wrapUnsigned (i : Int) : Int := i % unsignedEnd

/-- The same with a sign. -/
def wrapSigned (i : Int) : Int :=
  if wrapUnsigned i < signedEnd then wrapUnsigned i else wrapUnsigned i - unsignedEnd

theorem isUnsigned_iff {i : Int} : isUnsigned i = true ↔ 0 ≤ i ∧ i < unsignedEnd := by
  simp [isUnsigned]

theorem isSigned_iff {i : Int} : isSigned i = true ↔ -signedEnd ≤ i ∧ i < signedEnd := by
  simp [isSigned]

theorem isUnsigned_wrapUnsigned (i : Int) : isUnsigned (wrapUnsigned i) = true := by
  rw [isUnsigned_iff, wrapUnsigned, unsignedEnd]
  omega

theorem isSigned_wrapSigned (i : Int) : isSigned (wrapSigned i) = true := by
  rw [isSigned_iff, wrapSigned, wrapUnsigned, signedEnd, unsignedEnd]
  split <;> omega

theorem wrapUnsigned_of_isUnsigned {i : Int} (h : isUnsigned i = true) : wrapUnsigned i = i := by
  rw [isUnsigned_iff] at h
  exact Int.emod_eq_of_lt h.1 h.2

theorem wrapSigned_of_isSigned {i : Int} (h : isSigned i = true) : wrapSigned i = i := by
  rw [isSigned_iff, signedEnd] at h
  rw [wrapSigned, wrapUnsigned, signedEnd, unsignedEnd]
  split <;> omega

end Knot.Word
