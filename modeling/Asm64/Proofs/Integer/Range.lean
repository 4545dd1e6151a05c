import Asm64.RangeError
import Asm64.Proofs.Integer

/-!
# Ranges of integers

An integer is a sign and a magnitude, and both the magnitude and the ends of the ranges are 64-bit
words.  The tests on these words are exact at every width, the 64-bit one included, where the
unsigned range ends above all words.  A range is reported by its least and its greatest value, and
these enclose exactly the integers that pass its test.
-/

namespace Asm64

namespace RangeError

def Contains (e : RangeError) (z : Int) : Prop := e.least ≤ z ∧ z ≤ e.greatest

instance (e : RangeError) (z : Int) : Decidable (e.Contains z) :=
  inferInstanceAs (Decidable (_ ∧ _))

section

variable (name : Text) (value : Integer) (width : Width) (signed : Bool)

theorem least_ofWidth : (ofWidth name value width signed).least = -2 ^ (width.bits - 1) := by
  cases width <;> rfl

theorem greatest_ofWidth :
    ((ofWidth name value width signed).greatest : Int) =
      (if signed then 2 ^ (width.bits - 1) else 2 ^ width.bits) - 1 := by
  cases width <;> cases signed <;> rfl

theorem contains_ofWidth_iff (z : Int) :
    (ofWidth name value width signed).Contains z ↔
      -2 ^ (width.bits - 1) ≤ z ∧
        z < if signed then 2 ^ (width.bits - 1) else 2 ^ width.bits := by
  rw [Contains, least_ofWidth, greatest_ofWidth, Int.le_sub_one_iff]

/-- The range that is reported is the one that is tested. -/
theorem contains_value_iff (i : Integer) :
    (ofWidth name value width signed).Contains i.value ↔
      (if signed then i.fitsSigned width else i.fits width) = true := by
  rw [contains_ofWidth_iff]
  cases signed with
  | true => exact Integer.fitsSigned_iff.symm
  | false => exact Integer.fits_iff.symm

end

example : (ofWidth (ascii ".db8") ⟨false, 300⟩ .byte false).Contains 255 ∧
    ¬ (ofWidth (ascii ".db8") ⟨false, 300⟩ .byte true).Contains 255 := by decide

end RangeError

namespace Integer

/-- Both range tests are exact for every integer, minus zero and the largest magnitudes included.
The two's complement form keeps the value modulo 2^64, so that its low bits keep it modulo a power
of two, and the signed 64-bit number is the value where there is one.  The range that is reported
with an integer encloses the integers that pass the test, and no others. -/
theorem range_tests_are_exact (i : Integer) (width : Width) :
    (i.fitsSigned width = true ↔
      -2 ^ (width.bits - 1) ≤ i.value ∧ i.value < 2 ^ (width.bits - 1)) ∧
    (i.fits width = true ↔ -2 ^ (width.bits - 1) ≤ i.value ∧ i.value < 2 ^ width.bits) ∧
    (i.toUInt64.toNat : Int) = i.value % 2 ^ 64 ∧
    ((i.toUInt64.toNat % 2 ^ width.bits : Nat) : Int) = i.value % 2 ^ width.bits ∧
    (∀ z, i.toInt? = some z ↔ i.value = z ∧ -2 ^ 63 ≤ z ∧ z < 2 ^ 63) ∧
    ∀ (name : Text) (signed : Bool) (other : Integer),
      (RangeError.ofWidth name i width signed).Contains other.value ↔
        (if signed then other.fitsSigned width else other.fits width) = true := by
  refine ⟨fitsSigned_iff, fits_iff, ?_, ?_, fun _ => toInt?_eq_some_iff, ?_⟩
  · rw [toNat_toUInt64, natCast_twosComplement]
  · have divides : (2 ^ width.bits : Int) ∣ 2 ^ 64 := pow_dvd_pow 2 width.bits_le
    rw [toNat_toUInt64, Int.natCast_emod, Nat.cast_pow]
    exact twosComplement_emod divides i.value
  · intro name signed other
    exact RangeError.contains_value_iff name i width signed other

/-- The largest magnitude is the end of the unsigned 64-bit range. -/
example : fits ⟨false, 0xFFFFFFFFFFFFFFFF⟩ .qword = true ∧
    fits ⟨true, 0xFFFFFFFFFFFFFFFF⟩ .qword = false := by decide

/-- Only below zero is 2^63 a signed number. -/
example : toInt? ⟨true, 0x8000000000000000⟩ = some (-0x8000000000000000) ∧
    toInt? ⟨false, 0x8000000000000000⟩ = none := by decide

end Integer

end Asm64
