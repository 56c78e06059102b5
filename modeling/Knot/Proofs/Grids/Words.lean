import Knot.Number
import Knot.Word
import Mathlib.Algebra.Ring.Nat

/-!
Machine words as doubles. A double has more room in its exponent than a word has bits, however the word is
rounded, so that no word becomes an infinity.
-/

namespace Knot

open Float.Model UnpackedFloat

namespace Binary64

/-- A zero, or a number with so many bits and an exponent that is not above a bound. -/
inductive Tame (bits : Nat) (top : Int) : UnpackedFloat → Prop
  | zero (s : Sign) : Tame bits top (.zero s)
  | finite (s : Sign) {m : Nat} {e : Int} (positive : 0 < m) : m < 2 ^ bits → e ≤ top →
      Tame bits top (.finite s m e positive)

variable {bits m : Nat} {top e : Int}

theorem Tame.mono {bits' : Nat} {top' : Int} {f : UnpackedFloat} (tame : Tame bits top f) (more : bits ≤ bits')
    (higher : top ≤ top') : Tame bits' top' f := by
  cases tame with
  | zero s => exact .zero s
  | finite s positive short low =>
      exact .finite s positive (Nat.lt_of_lt_of_le short (Nat.pow_le_pow_right (by decide) more))
        (Int.le_trans low higher)

theorem log2_le (short : m < 2 ^ bits) : m.log2 ≤ bits := by
  by_cases none : m = 0
  · rw [none]
    exact Nat.zero_le _
  · exact Nat.le_of_lt ((Nat.log2_lt none).mpr short)

theorem targetExponent_eq (total : Int) : Format.binary64.targetExponent total = max (total - 53) (-1074) := rfl

theorem shifted_mantissa_le (em : ExtendedMantissa) (n : Nat) : (em >>> n).mantissa ≤ em.mantissa := by
  induction n with
  | zero => exact Nat.le_refl _
  | succ n ih => exact Nat.le_trans (Nat.div_le_self _ 2) ih

theorem given_mantissa (m : Nat) (a : Accuracy) : (ExtendedMantissa.ofMantissaAndAccuracy m a).mantissa = m := by
  cases a with
  | exact => rfl
  | inexact o => cases o <;> rfl

theorem rounded_le (em : ExtendedMantissa) : em.roundedMantissa ≤ em.mantissa + 1 := by
  unfold ExtendedMantissa.roundedMantissa
  cases em.accuracy with
  | exact => exact Nat.le_succ _
  | inexact o =>
      cases o with
      | lt => exact Nat.le_succ _
      | eq => exact Nat.add_le_add_left (Nat.le_of_lt_succ (Nat.mod_lt _ (by decide))) _
      | gt => exact Nat.le_refl _

/-- What shifting takes from the bits, it adds to the exponent. -/
theorem shift_bounded (short : m < 2 ^ bits) (low : e ≤ top) (enough : -1074 ≤ top) (a : Accuracy) :
    (shiftToTargetExponent .binary64 m e a).1.mantissa < 2 ^ bits ∧
      (shiftToTargetExponent .binary64 m e a).2 ≤ top + bits := by
  have log := log2_le short
  have shifted := shifted_mantissa_le (.ofMantissaAndAccuracy m a)
    (Format.binary64.targetExponent (totalExponent m e) - e).toNat
  rw [given_mantissa] at shifted
  refine ⟨Nat.lt_of_le_of_lt shifted short, ?_⟩
  change e + ((Format.binary64.targetExponent (totalExponent m e) - e).toNat : Int) ≤ _
  rw [targetExponent_eq, totalExponent]
  omega

/-- Rounding adds a bit at most, and to the exponent what bits there were. -/
theorem roundWithAccuracy_tame (s : Sign) (short : m < 2 ^ bits) (low : e ≤ top) (enough : -1074 ≤ top)
    (a : Accuracy) :
    Tame (bits + 1) (top + bits + (bits + 1)) (roundWithAccuracy .binary64 s m e a) := by
  obtain ⟨short₁, low₁⟩ := shift_bounded short low enough a
  unfold roundWithAccuracy
  cases first : shiftToTargetExponent .binary64 m e a with
  | mk em e₁ =>
      rw [first] at short₁ low₁
      have rounded : em.roundedMantissa < 2 ^ (bits + 1) := by
        have le := rounded_le em
        rw [Nat.pow_succ]
        dsimp only at short₁
        omega
      obtain ⟨short₂, low₂⟩ := shift_bounded rounded low₁ (by omega) .exact
      dsimp only
      by_cases none : (shiftToTargetExponent .binary64 em.roundedMantissa e₁ .exact).1.mantissa = 0
      · rw [dif_pos none]
        exact .zero s
      · rw [dif_neg none]
        exact .finite s _ short₂ (by exact_mod_cast low₂)

/-- Bits that are not those of an infinity unpack to a number whose exponent they tell. -/
theorem unpack_packComponents_tame (s : Sign) {x : BitVec 11} (y : BitVec 52) (finite : x ≠ -1#_)
    (low : (x.toNat : Int) - 1075 ≤ top) (enough : -1074 ≤ top) :
    Tame 53 top (UnpackedFloat.unpack .binary64 (packComponents .binary64 s x y)) := by
  unfold UnpackedFloat.unpack
  rw [unpackExponent_packComponents]
  dsimp only
  rw [if_neg finite]
  by_cases none : x = 0#11
  · rw [if_pos none]
    by_cases empty : unpackMantissa (packComponents .binary64 s x y) = 0#52
    · rw [dif_pos empty]
      exact .zero _
    · rw [dif_neg empty]
      refine .finite _ _ (Nat.lt_of_lt_of_le (BitVec.isLt (w := 52) _) (by decide)) ?_
      rw [none]
      exact enough
  · rw [if_neg none]
    exact .finite _ _ (BitVec.isLt (w := 53) _) low

/-- Packing keeps a number finite whose exponent a double has room for. -/
theorem unpack_pack_tame {f : UnpackedFloat} (tame : Tame bits top f) (room : top ≤ 970) (enough : -1074 ≤ top) :
    Tame 53 top (UnpackedFloat.unpack .binary64 (UnpackedFloat.pack .binary64 f)) := by
  have none : ((0 : BitVec 11).toNat : Int) - 1075 ≤ top := by
    change (0 : Int) - 1075 ≤ top
    omega
  cases tame with
  | zero s => exact unpack_packComponents_tame s 0 (by decide) none enough
  | finite s positive short low =>
      rename_i m e
      have whole : UnpackedFloat.pack .binary64 (.finite s m e positive) =
          if 2 ^ 11 ≤ (e + 1023 + 52).toNat + 1 then packedInfinity .binary64 s
          else if m.log2 + 1 = 53 then
            packComponents .binary64 s (BitVec.ofNat 11 (e + 1023 + 52).toNat) (BitVec.ofNat 52 m)
          else packComponents .binary64 s 0 (BitVec.ofNat 52 m) := rfl
      have few : (e + 1023 + 52).toNat < 2047 := by omega
      have biased : (BitVec.ofNat 11 (e + 1023 + 52).toNat).toNat = (e + 1023 + 52).toNat := by
        rw [BitVec.toNat_ofNat, Nat.mod_eq_of_lt (by omega)]
      rw [whole, if_neg (by omega)]
      split
      · refine unpack_packComponents_tame s _ ?_ ?_ enough
        · intro same
          rw [same] at biased
          have all : (-1#11).toNat = 2047 := rfl
          omega
        · rw [biased]
          omega
      · exact unpack_packComponents_tame s _ (by decide) none enough

theorem isInf_of_tame {f : UnpackedFloat} (tame : Tame bits top f) : f.isInf = false := by
  cases tame <;> rfl

theorem round_tame (s : Sign) (short : m < 2 ^ bits) :
    Tame (bits + 52 + 1) (0 + (bits + 52 : Nat) + ((bits + 52 : Nat) + 1)) (round .binary64 s m 0) := by
  have few : (0 - Format.binary64.targetExponent (totalExponent m 0)).toNat ≤ 52 := by
    rw [targetExponent_eq, totalExponent]
    omega
  change Tame _ _ (roundWithAccuracy .binary64 s (m <<< (0 - _ : Int).toNat) (0 - ((0 - _ : Int).toNat : Int)) .exact)
  refine roundWithAccuracy_tame s ?_ (by omega) (by decide) .exact
  rw [Nat.shiftLeft_eq, Nat.pow_add]
  exact Nat.mul_lt_mul_of_lt_of_le short (Nat.pow_le_pow_right (by decide) few) (Nat.two_pow_pos _)

theorem ofUInt64_tame {n : UInt64} (short : n.toNat < 2 ^ bits) :
    Tame (bits + 52 + 1) (0 + (bits + 52 : Nat) + ((bits + 52 : Nat) + 1)) (UnpackedFloat.ofUInt64 .binary64 n) := by
  change Tame _ _ (UnpackedFloat.normalize .binary64 (n.toNat : Int) 0 .positive)
  unfold UnpackedFloat.normalize
  split
  · exact round_tame .negative (by omega)
  · exact .zero .positive
  · exact round_tame .positive short

theorem mul_finite_tame (bits' : Nat) (top' : Int) {n : Nat} {e : Int} {f : UnpackedFloat}
    (tame : Tame bits top f) {s : Sign} (positive : 0 < n) (short : n < 2 ^ bits') (low : e ≤ top')
    (enough : -1074 ≤ top + top') :
    Tame (bits + bits' + 1) (top + top' + (bits + bits' : Nat) + ((bits + bits' : Nat) + 1))
      (mul .binary64 f (.finite s n e positive)) := by
  cases tame with
  | zero _ => exact .zero _
  | finite _ some few under =>
      refine roundWithAccuracy_tame _ ?_ (by omega) enough .exact
      rw [Nat.pow_add]
      exact Nat.mul_lt_mul'' few short

theorem ofScientific_tame {n : Nat} (short : n < 2 ^ 64) :
    Tame 119 184 (UnpackedFloat.ofScientific .binary64 n 0) := by
  unfold UnpackedFloat.ofScientific
  by_cases none : n = 0
  · rw [dif_pos none]
    exact .zero .positive
  · rw [dif_neg none]
    have small : ¬(0 : Int) > 2 ^ Format.binary64.exponentBits := by decide
    have large : ¬(0 : Int) < -((2 ^ Format.binary64.exponentBits : Int) + n.log2) := by
      have power : (2 ^ Format.binary64.exponentBits : Int) = 2048 := rfl
      omega
    rw [if_neg small, if_neg large, if_pos (Int.le_refl 0)]
    have shifted : n <<< 53 < 2 ^ 117 := by
      rw [Nat.shiftLeft_eq]
      omega
    have positive : 0 < n <<< 53 := by
      rw [Nat.shiftLeft_eq]
      omega
    have few : Tame 117 (-53) (.finite .positive (n <<< 53) (-53) positive) :=
      .finite .positive positive shifted (Int.le_refl (-53))
    exact mul_finite_tame 1 0 few (by decide) (by decide) (by decide) (by decide)

/-- No natural number of 64 bits is rounded to an infinity. -/
theorem isInf_ofScientific {n : Nat} (word : n < 2 ^ 64) : (Float.ofScientific n false 0).isInf = false := by
  unfold Float.ofScientific
  split
  · next small =>
      have short : n.toUInt64.toNat < 2 ^ 53 := Nat.lt_of_le_of_lt (Nat.mod_le _ _) small.1
      have given : Tame 53 211 (Float.Model.ofUInt64 n.toUInt64).unpack :=
        unpack_pack_tame (ofUInt64_tame short) (by decide) (by decide)
      have one : (Float.exactlyRepresentablePowersOfTen[0]).toModel.unpack =
          .finite .positive (2 ^ 52) (-52) (by decide) := rfl
      change (UnpackedFloat.unpack .binary64 (UnpackedFloat.pack .binary64
        (mul .binary64 (Float.Model.ofUInt64 n.toUInt64).unpack
          (Float.exactlyRepresentablePowersOfTen[0]).toModel.unpack))).isInf = false
      rw [one]
      have product := mul_finite_tame 53 (-52) given (s := .positive) (n := 2 ^ 52) (e := -52) (by decide)
        (by decide) (by decide) (by decide)
      exact isInf_of_tame (unpack_pack_tame product (by decide) (by decide))
  · exact isInf_of_tame (unpack_pack_tame (ofScientific_tame word) (by decide) (by decide))

end Binary64

/-- Every word has a double next to it. -/
theorem Number.toFloat_word {i : Int} (word : Word.isSigned i ∨ Word.isUnsigned i) :
    ∃ x, (Number.int i).toFloat = .ok x := by
  have short : i.natAbs < 2 ^ 64 := by
    rw [Word.isSigned_iff, Word.isUnsigned_iff, Word.signedEnd, Word.unsignedEnd] at word
    omega
  have finite := Binary64.isInf_ofScientific short
  refine ⟨if i < 0 then -Float.ofScientific i.natAbs false 0 else Float.ofScientific i.natAbs false 0, ?_⟩
  rw [Number.toFloat, nearestFloat?, finite]
  rfl

end Knot
