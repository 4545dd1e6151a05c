import Mathlib.Tactic
import Asm64.Word

/-!
# Numbers and their byte fields

A word holds the powers of two below 2^64, and gives back a signed number modulo 2^64.  A field of
`count` bytes keeps a number modulo `256 ^ count`.  Read as a signed number, it gives back every
number in the signed range of the field.
-/

namespace Asm64

theorem Width.bits_injective : Function.Injective bits := by
  intro width other
  cases width <;> cases other <;> simp [bits]

theorem Width.bits_ne_zero (width : Width) : width.bits ≠ 0 := by
  cases width <;> decide

theorem Width.bits_le (width : Width) : width.bits ≤ 64 := by
  cases width <;> decide

theorem Width.bytes_le (width : Width) : width.bytes ≤ 8 := by
  cases width <;> decide

theorem wrap64_eq_self {value : Int} (low : -2 ^ 63 ≤ value) (high : value < 2 ^ 63) :
    wrap64 value = value := by
  unfold wrap64
  apply Int.bmod_eq_of_le_mul_two
  · norm_num
    omega
  · norm_num
    omega

/-! ### Words -/

theorem toNat_one_shiftLeft {bits : Nat} (narrow : bits < 64) :
    ((1 : UInt64) <<< UInt64.ofNat bits).toNat = 2 ^ bits := by
  have amount : (UInt64.ofNat bits).toNat % 64 = bits := by
    rw [UInt64.toNat_ofNat_of_lt' (by norm_num; omega), Nat.mod_eq_of_lt narrow]
  rw [UInt64.toNat_shiftLeft, amount, UInt64.toNat_one, Nat.one_shiftLeft,
    Nat.mod_eq_of_lt (Nat.pow_lt_pow_right one_lt_two narrow)]

theorem lt_one_shiftLeft_iff {word : UInt64} {bits : Nat} :
    64 ≤ bits ∨ word < 1 <<< UInt64.ofNat bits ↔ word.toNat < 2 ^ bits := by
  by_cases wide : 64 ≤ bits
  · have below : word.toNat < 2 ^ bits :=
      word.toNat_lt.trans_le (Nat.pow_le_pow_right two_pos wide)
    simp only [wide, below, true_or]
  · rw [UInt64.lt_iff_toNat_lt, toNat_one_shiftLeft (by omega)]
    simp only [wide, false_or]

theorem natCast_twosComplement (value : Int) : (twosComplement value : Int) = value % 2 ^ 64 := by
  rw [twosComplement, Int.pow_eq]
  exact Int.toNat_of_nonneg (Int.emod_nonneg _ (by norm_num))

theorem twosComplement_emod {modulus : Int} (divides : modulus ∣ 2 ^ 64) (value : Int) :
    (twosComplement value : Int) % modulus = value % modulus := by
  rw [natCast_twosComplement]
  exact Int.emod_emod_of_dvd value divides

theorem toInt_toInt64 {word : UInt64} {value : Int} (form : word.toNat = twosComplement value) :
    word.toInt64.toInt = wrap64 value := by
  calc
    word.toInt64.toInt = (word.toNat : Int).bmod (2 ^ 64) := BitVec.toInt_eq_toNat_bmod _
    _ = (value % 2 ^ 64).bmod (2 ^ 64) := by rw [form, natCast_twosComplement]
    _ = wrap64 value := Int.emod_bmod value (2 ^ 64)

/-! ### Fields -/

theorem ofLittleEndian_littleEndian (count number : Nat) :
    ofLittleEndian (littleEndian count number) = number % 256 ^ count := by
  induction count generalizing number with
  | zero => simp [littleEndian, ofLittleEndian, Nat.mod_one]
  | succ count inductionHypothesis =>
      simp only [littleEndian, ofLittleEndian, inductionHypothesis]
      rw [pow_succ', Nat.mod_mul]
      simp

theorem take_littleEndian (size count number : Nat) :
    (littleEndian count number).take size = littleEndian (min count size) number := by
  induction count generalizing size number with
  | zero => simp [littleEndian]
  | succ count inductionHypothesis =>
      cases size with
      | zero => simp [littleEndian]
      | succ size =>
          rw [littleEndian, List.take_succ_cons, inductionHypothesis, Nat.succ_min_succ,
            littleEndian]

theorem littleEndian_zero (count : Nat) : littleEndian count 0 = List.replicate count 0 := by
  induction count with
  | zero => rfl
  | succ count inductionHypothesis =>
      rw [littleEndian, Nat.zero_div, inductionHypothesis, List.replicate_succ]
      rfl

/-- The number that bytes stand for in two's complement, least significant byte first. -/
def signedOfLittleEndian (bytes : List UInt8) : Int :=
  (ofLittleEndian bytes : Int).bmod (256 ^ bytes.length)

/-- A field keeps a number modulo its size. -/
theorem ofLittleEndian_twosComplement {count : Nat} (narrow : count ≤ 8) (value : Int) :
    (ofLittleEndian (littleEndian count (twosComplement value)) : Int) = value % 256 ^ count := by
  have divides : (256 ^ count : Int) ∣ 2 ^ 64 :=
    Dvd.dvd.trans (pow_dvd_pow 256 narrow) (by norm_num)
  rw [ofLittleEndian_littleEndian, Int.natCast_emod, Nat.cast_pow]
  exact twosComplement_emod divides value

theorem signedOfLittleEndian_littleEndian {count : Nat} {value : Int} (narrow : count ≤ 8)
    (low : -256 ^ count ≤ 2 * value) (high : 2 * value < 256 ^ count) :
    signedOfLittleEndian (littleEndian count (twosComplement value)) = value := by
  have casted : (256 : Int) ^ count = ((256 ^ count : Nat) : Int) := by push_cast; rfl
  rw [signedOfLittleEndian, ofLittleEndian_twosComplement narrow, length_littleEndian, casted,
    Int.emod_bmod]
  apply Int.bmod_eq_of_le_mul_two
  · push_cast
    omega
  · push_cast
    omega

end Asm64
