import Mathlib.Tactic
import Asm64.MachineCode

/-!
# The parts of prefix, ModR/M and SIB bytes

Setting a part of a byte changes that part and no other.
-/

namespace Asm64

theorem or_and_byte (a b c : UInt8) : (a ||| b) &&& c = (a &&& c) ||| (b &&& c) :=
  UInt8.toBitVec_inj.1 BitVec.and_or_distrib_right

theorem and_shiftRight_byte (a b shift : UInt8) :
    (a &&& b) >>> shift = (a >>> shift) &&& (b >>> shift) :=
  UInt8.toBitVec_inj.1 (by simp [BitVec.ushiftRight_and_distrib])

theorem replaceBits_and_self (byte mask value shift : UInt8) :
    replaceBits byte mask value shift &&& mask = (value <<< shift) &&& mask := by
  rw [replaceBits, or_and_byte, UInt8.and_assoc, UInt8.not_and_self, UInt8.and_zero,
    UInt8.zero_or, UInt8.and_assoc, UInt8.and_self]

theorem replaceBits_and_of_disjoint {mask other : UInt8} (disjoint : mask &&& other = 0)
    (byte value shift : UInt8) :
    replaceBits byte mask value shift &&& other = byte &&& other := by
  have kept : ~~~mask &&& other = other := by
    calc ~~~mask &&& other = (~~~mask &&& other) ||| (mask &&& other) := by
          rw [disjoint, UInt8.or_zero]
      _ = (~~~mask ||| mask) &&& other := (or_and_byte _ _ _).symm
      _ = other := by rw [UInt8.not_or_self, UInt8.neg_one_and]
  rw [replaceBits, or_and_byte, UInt8.and_assoc, kept, UInt8.and_assoc, disjoint,
    UInt8.and_zero, UInt8.or_zero]

theorem cases_of_lt_eight {value : UInt8} (low : value < 8) :
    value = 0 ∨ value = 1 ∨ value = 2 ∨ value = 3 ∨ value = 4 ∨ value = 5 ∨ value = 6 ∨
      value = 7 := by
  have bound : value.toNat < 8 := UInt8.lt_iff_toNat_lt.mp low
  simp only [← UInt8.toNat_inj, UInt8.reduceToNat]
  omega

theorem cases_of_lt_four {value : UInt8} (low : value < 4) :
    value = 0 ∨ value = 1 ∨ value = 2 ∨ value = 3 := by
  have bound : value.toNat < 4 := UInt8.lt_iff_toNat_lt.mp low
  simp only [← UInt8.toNat_inj, UInt8.reduceToNat]
  omega

namespace ModRM

variable (m : ModRM)

@[simp]
theorem mod_setReg (value : UInt8) : (m.setReg value).mod = m.mod := by
  rw [mod, setReg, replaceBits_and_of_disjoint (by decide), mod]

@[simp]
theorem mod_setRm (value : UInt8) : (m.setRm value).mod = m.mod := by
  rw [mod, setRm, replaceBits_and_of_disjoint (by decide), mod]

@[simp]
theorem reg_setMod (value : UInt8) : (m.setMod value).reg = m.reg := by
  rw [reg, setMod, replaceBits_and_of_disjoint (by decide), reg]

@[simp]
theorem reg_setRm (value : UInt8) : (m.setRm value).reg = m.reg := by
  rw [reg, setRm, replaceBits_and_of_disjoint (by decide), reg]

@[simp]
theorem rm_setMod (value : UInt8) : (m.setMod value).rm = m.rm := by
  rw [rm, setMod, replaceBits_and_of_disjoint (by decide), rm]

@[simp]
theorem rm_setReg (value : UInt8) : (m.setReg value).rm = m.rm := by
  rw [rm, setReg, replaceBits_and_of_disjoint (by decide), rm]

theorem mod_setMod {value : UInt8} (low : value < 4) : (m.setMod value).mod = value := by
  rw [mod, setMod, replaceBits_and_self]
  rcases cases_of_lt_four low with rfl | rfl | rfl | rfl <;> rfl

theorem reg_setReg {value : UInt8} (low : value < 8) : (m.setReg value).reg = value := by
  rw [reg, setReg, replaceBits_and_self]
  rcases cases_of_lt_eight low with rfl | rfl | rfl | rfl | rfl | rfl | rfl | rfl <;> rfl

theorem rm_setRm {value : UInt8} (low : value < 8) : (m.setRm value).rm = value := by
  rw [rm, setRm, replaceBits_and_self]
  rcases cases_of_lt_eight low with rfl | rfl | rfl | rfl | rfl | rfl | rfl | rfl <;> rfl

end ModRM

/-! A SIB byte has its parts where a ModR/M byte has them. -/

namespace Sib

variable (s : Sib)

@[simp]
theorem base_setIndex (value : UInt8) : (s.setIndex value).base = s.base :=
  ModRM.rm_setReg ⟨s.byte⟩ value

@[simp]
theorem base_setScale (value : UInt8) : (s.setScale value).base = s.base :=
  ModRM.rm_setMod ⟨s.byte⟩ value

@[simp]
theorem index_setScale (value : UInt8) : (s.setScale value).index = s.index :=
  ModRM.reg_setMod ⟨s.byte⟩ value

theorem base_setBase {value : UInt8} (low : value < 8) : (s.setBase value).base = value :=
  ModRM.rm_setRm ⟨s.byte⟩ low

theorem index_setIndex {value : UInt8} (low : value < 8) : (s.setIndex value).index = value :=
  ModRM.reg_setReg ⟨s.byte⟩ low

theorem scale_setScale {value : UInt8} (low : value < 4) : (s.setScale value).scale = value :=
  ModRM.mod_setMod ⟨s.byte⟩ low

end Sib

namespace Rex

theorem bit_eq {position mask : UInt8} (isMask : mask >>> position = 1) (r : Rex) :
    r.bit position = decide ((r.byte &&& mask) >>> position = 1) := by
  rw [and_shiftRight_byte, isMask, bit]

section Set

variable (r : Rex) (value : Bool) {position shift changed : UInt8}

theorem bit_replaceBits_self {mask : UInt8} (isMask : mask >>> position = 1)
    (shown : ∀ value, ((bitOf value <<< position) &&& mask) >>> position = bitOf value) :
    bit ⟨replaceBits r.byte mask (bitOf value) position⟩ position = value := by
  rw [bit_eq isMask, replaceBits_and_self, shown]
  cases value <;> rfl

theorem bit_replaceBits_of_disjoint (mask : UInt8) (isMask : mask >>> position = 1)
    (disjoint : changed &&& mask = 0) :
    bit ⟨replaceBits r.byte changed (bitOf value) shift⟩ position = r.bit position := by
  rw [bit_eq isMask, replaceBits_and_of_disjoint disjoint, ← bit_eq isMask]

@[simp]
theorem bits_setW :
    (r.setW value).w = value ∧ (r.setW value).r = r.r ∧ (r.setW value).x = r.x ∧
      (r.setW value).b = r.b := by
  refine ⟨bit_replaceBits_self r value ?_ ?_, bit_replaceBits_of_disjoint r value 4 ?_ ?_,
    bit_replaceBits_of_disjoint r value 2 ?_ ?_, bit_replaceBits_of_disjoint r value 1 ?_ ?_⟩ <;>
    decide

@[simp]
theorem bits_setR :
    (r.setR value).w = r.w ∧ (r.setR value).r = value ∧ (r.setR value).x = r.x ∧
      (r.setR value).b = r.b := by
  refine ⟨bit_replaceBits_of_disjoint r value 8 ?_ ?_, bit_replaceBits_self r value ?_ ?_,
    bit_replaceBits_of_disjoint r value 2 ?_ ?_, bit_replaceBits_of_disjoint r value 1 ?_ ?_⟩ <;>
    decide

@[simp]
theorem bits_setX :
    (r.setX value).w = r.w ∧ (r.setX value).r = r.r ∧ (r.setX value).x = value ∧
      (r.setX value).b = r.b := by
  refine ⟨bit_replaceBits_of_disjoint r value 8 ?_ ?_, bit_replaceBits_of_disjoint r value 4 ?_ ?_,
    bit_replaceBits_self r value ?_ ?_, bit_replaceBits_of_disjoint r value 1 ?_ ?_⟩ <;>
    decide

@[simp]
theorem bits_setB :
    (r.setB value).w = r.w ∧ (r.setB value).r = r.r ∧ (r.setB value).x = r.x ∧
      (r.setB value).b = value := by
  refine ⟨bit_replaceBits_of_disjoint r value 8 ?_ ?_, bit_replaceBits_of_disjoint r value 4 ?_ ?_,
    bit_replaceBits_of_disjoint r value 2 ?_ ?_, bit_replaceBits_self r value ?_ ?_⟩ <;>
    decide

/-- The bits that mark a REX prefix are left alone. -/
@[simp]
theorem mark_replaceBits (low : changed &&& 0xF0 = 0) :
    replaceBits r.byte changed (bitOf value) shift &&& 0xF0 = r.byte &&& 0xF0 :=
  replaceBits_and_of_disjoint low r.byte (bitOf value) shift

@[simp]
theorem bits_setOn :
    r.setOn.w = r.w ∧ r.setOn.r = r.r ∧ r.setOn.x = r.x ∧ r.setOn.b = r.b := by
  have kept {position : UInt8} (mask : UInt8) (isMask : mask >>> position = 1)
      (disjoint : 0x40 &&& mask = 0) : r.setOn.bit position = r.bit position := by
    rw [bit_eq isMask, setOn, or_and_byte, disjoint, UInt8.or_zero, ← bit_eq isMask]
  refine ⟨kept 8 ?_ ?_, kept 4 ?_ ?_, kept 2 ?_ ?_, kept 1 ?_ ?_⟩ <;> decide

end Set

end Rex

end Asm64
