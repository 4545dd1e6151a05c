import Asm64.Integer
import Asm64.Proofs.Word

/-!
# Integers in their fields

An integer fits a field when its value lies in the signed range of the field, or in the signed or
the unsigned range.  It is tested by comparing its magnitude with a power of two, as words.  A field
gives back the value in the first case, and the value modulo its size in any case.
-/

namespace Asm64.Integer

theorem toNat_toUInt64 (i : Integer) : i.toUInt64.toNat = twosComplement i.value := by
  have bound := i.magnitude.toNat_lt
  rw [toUInt64, twosComplement, Int.pow_eq, value]
  split
  · rw [UInt64.toNat_neg]
    simp only [UInt64.size]
    omega
  · omega

theorem value_ofInt {z : Int} (low : -2 ^ 63 ≤ z) (high : z < 2 ^ 63) : (ofInt z).value = z := by
  have magnitude : (UInt64.ofNat z.natAbs).toNat = z.natAbs :=
    UInt64.toNat_ofNat_of_lt' (by norm_num; omega)
  by_cases negative : z < 0
  · simp only [ofInt, value, negative, decide_true, if_true, magnitude]
    omega
  · simp only [ofInt, value, negative, decide_false, Bool.false_eq_true, if_false, magnitude]
    omega

variable {i : Integer} {width : Width}

theorem toNat_signedLimit : (signedLimit width).toNat = 2 ^ (width.bits - 1) :=
  toNat_one_shiftLeft ((Nat.sub_one_lt width.bits_ne_zero).trans_le width.bits_le)

/-- A negative value fits if its magnitude reaches at most the end of the signed range. -/
theorem negative_fits_iff {limit : Int} (negative : i.negative = true) (positive : 0 < limit) :
    i.magnitude ≤ signedLimit width ↔ -2 ^ (width.bits - 1) ≤ i.value ∧ i.value < limit := by
  have casted : ((2 ^ (width.bits - 1) : Nat) : Int) = 2 ^ (width.bits - 1) := by push_cast; rfl
  rw [UInt64.le_iff_toNat_le, toNat_signedLimit, value, if_pos negative]
  omega

theorem nonnegative_fits_iff {bits : Nat} (nonnegative : i.negative = false) :
    i.magnitude.toNat < 2 ^ bits ↔ -2 ^ (width.bits - 1) ≤ i.value ∧ i.value < 2 ^ bits := by
  have casted : ((2 ^ bits : Nat) : Int) = 2 ^ bits := by push_cast; rfl
  have low : (0 : Int) < 2 ^ (width.bits - 1) := by positivity
  rw [value, if_neg (by simp [nonnegative])]
  omega

theorem fitsSigned_iff :
    i.fitsSigned width = true ↔
      -2 ^ (width.bits - 1) ≤ i.value ∧ i.value < 2 ^ (width.bits - 1) := by
  unfold fitsSigned
  cases sign : i.negative with
  | true =>
      rw [if_pos rfl, decide_eq_true_iff]
      exact negative_fits_iff sign (by positivity)
  | false =>
      rw [if_neg Bool.false_ne_true, decide_eq_true_iff, UInt64.lt_iff_toNat_lt,
        toNat_signedLimit]
      exact nonnegative_fits_iff sign

theorem fits_iff :
    i.fits width = true ↔ -2 ^ (width.bits - 1) ≤ i.value ∧ i.value < 2 ^ width.bits := by
  unfold fits
  cases sign : i.negative with
  | true =>
      rw [if_pos rfl, decide_eq_true_iff]
      exact negative_fits_iff sign (by positivity)
  | false =>
      rw [if_neg Bool.false_ne_true, Bool.or_eq_true, decide_eq_true_iff, decide_eq_true_iff,
        lt_one_shiftLeft_iff]
      exact nonnegative_fits_iff sign

theorem toInt?_eq_some_iff {z : Int} :
    i.toInt? = some z ↔ i.value = z ∧ -2 ^ 63 ≤ z ∧ z < 2 ^ 63 := by
  have range : i.fitsSigned .qword = true ↔ -2 ^ 63 ≤ i.value ∧ i.value < 2 ^ 63 := fitsSigned_iff
  unfold toInt?
  split
  · rename_i fits
    obtain ⟨low, high⟩ := range.mp fits
    -- The two's complement form is read back modulo 2^64, and in this range nothing wraps.
    rw [toInt_toInt64 i.toNat_toUInt64, wrap64_eq_self low high, Option.some.injEq]
    constructor
    · rintro rfl
      exact ⟨rfl, low, high⟩
    · exact And.left
  · rename_i unfit
    constructor
    · intro absent
      cases absent
    · rintro ⟨rfl, inRange⟩
      exact absurd (range.mpr inRange) unfit

theorem signed_field (fits : i.fitsSigned width = true) :
    signedOfLittleEndian (littleEndian width.bytes i.toUInt64.toNat) = i.value := by
  obtain ⟨low, high⟩ := fitsSigned_iff.mp fits
  have size : (256 : Int) ^ width.bytes = 2 * 2 ^ (width.bits - 1) := by
    cases width <;> rfl
  rw [toNat_toUInt64]
  apply signedOfLittleEndian_littleEndian width.bytes_le <;> omega

theorem unsigned_field (i : Integer) (width : Width) :
    (ofLittleEndian (littleEndian width.bytes i.toUInt64.toNat) : Int) =
      i.value % 2 ^ width.bits := by
  rw [toNat_toUInt64, ofLittleEndian_twosComplement width.bytes_le, Width.bits_eq, pow_mul]
  rfl

end Asm64.Integer
