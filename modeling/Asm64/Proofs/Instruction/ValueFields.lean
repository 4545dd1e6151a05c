import Asm64.Proofs.Instruction.Decoding
import Asm64.Proofs.Instruction.ParsedForm

/-!
# Integers keep their value

Which integers an operand position takes depends on whether its field is extended to the operand
size.  If it is, they are those that extending the field gives back.  If not, they are those that
the field can stand for as a signed or as an unsigned number.
-/

namespace Asm64

/-- Whether the operand stands for a number that may be known only later. -/
def OperandValue.isNumber : OperandValue → Bool
  | integer _ => true
  | label _ => true
  | _ => false

theorem OperandType.isValue_of_accepts {type : OperandType} {operandBits : Nat}
    {value : OperandValue} (accepted : type.accepts operandBits value = true) :
    type.isValue = value.isNumber := by
  cases type with
  | accumulator width | count | deviceAddress =>
      simp only [accepts, decide_eq_true_eq] at accepted
      rw [accepted]
      rfl
  | register width =>
      cases value with
      | register r => rfl
      | _ => cases accepted
  | registerOrMemory width =>
      cases value with
      | register r | memory m => rfl
      | _ => cases accepted
  | memory =>
      cases value with
      | memory m => rfl
      | _ => cases accepted
  | immediate width | relative width =>
      cases value with
      | integer z | label name => rfl
      | _ => cases accepted
  | other number => cases accepted

namespace OperandType

variable {type : OperandType} {width : Width} (isValue : type.valueWidth? = some width)
  (operandBits : Nat)

include isValue

theorem accepts_integer_iff (z : Integer) :
    type.accepts operandBits (.integer z) = true ↔
      if type.isRelative = true ∨ width.bits < operandBits then
        -2 ^ (width.bits - 1) ≤ z.value ∧ z.value < 2 ^ (width.bits - 1)
      else -2 ^ (width.bits - 1) ≤ z.value ∧ z.value < 2 ^ width.bits := by
  cases type with
  | immediate width =>
      cases isValue
      by_cases extended : width.bits < operandBits
      · rw [if_pos (Or.inr extended), accepts, isSignExtended, decide_eq_true extended, if_pos rfl]
        exact Integer.fitsSigned_iff
      · rw [if_neg (by simp [isRelative, extended]), accepts, isSignExtended,
          decide_eq_false extended, if_neg Bool.false_ne_true]
        exact Integer.fits_iff
  | relative width =>
      cases isValue
      rw [if_pos (show (relative width).isRelative = true ∨ _ from Or.inl rfl)]
      exact Integer.fitsSigned_iff
  | _ => cases isValue

/-- A label is not given to a field from which it would have to be extended to more than 32 bits
or to the operand size. -/
theorem accepts_label_iff (isImmediate : type.isImmediate = true) (name : Text) :
    type.accepts operandBits (.label name) = true ↔ min operandBits 32 ≤ width.bits := by
  cases type with
  | immediate width =>
      cases isValue
      exact decide_eq_true_iff
  | _ => cases isImmediate

end OperandType

namespace Form

open Draft

variable {f : Form} {operands : List Operand} {i : Instruction}

theorem immediate_of_encode (arranged : f.Arranged) (encoded : f.encode operands = .ok i)
    {type : OperandType} {operand : Operand} (pair : (type, operand) ∈ f.operands.zip operands)
    {z : Integer} (isInteger : operand.value = .integer z) {width : Width}
    (isValue : type.valueWidth? = some width) :
    i.code.immediate = littleEndian width.bytes z.toUInt64.toNat := by
  obtain ⟨d, complete, rfl⟩ := complete_of_encode arranged encoded
  have here := (List.forall₂_iff_zip.mp complete.shown).2 pair
  rw [isInteger] at here
  cases here with
  | integer isWidth used immediate =>
      rw [isValue, Option.some.injEq] at isWidth
      subst isWidth
      exact immediate

/-- A position takes exactly the integers of the range of its field: the signed range if the field
is a code offset or narrower than the operands, the signed and the unsigned range if not.  The
instruction ends in the field, which stands for the integer in the first case, and for the integer
modulo its size in the second.  An immediate takes a label only if its field is not narrower than
the operands, or has 32 bits. -/
theorem integers_keep_their_value {t : Text} {f : Form} (parsed : Form.parse t = .ok f)
    {type : OperandType} {width : Width} (isValue : type.valueWidth? = some width) :
    (∀ z : Integer, type.accepts f.operandBits (.integer z) = true ↔
      if type.isRelative = true ∨ width.bits < f.operandBits then
        -2 ^ (width.bits - 1) ≤ z.value ∧ z.value < 2 ^ (width.bits - 1)
      else -2 ^ (width.bits - 1) ≤ z.value ∧ z.value < 2 ^ width.bits) ∧
    (∀ (operands : List Operand) (operand : Operand) (z : Integer) (i : Instruction),
      f.acceptsOperands operands = true → (type, operand) ∈ f.operands.zip operands →
      operand.value = .integer z → f.encode operands = .ok i →
      ∃ front field, i.code.bytes = front ++ field ∧ 8 * field.length = width.bits ∧
        if type.isRelative = true ∨ width.bits < f.operandBits then
          signedOfLittleEndian field = z.value
        else (ofLittleEndian field : Int) = z.value % 2 ^ width.bits) ∧
    ∀ name, type.isImmediate = true →
      (type.accepts f.operandBits (.label name) = true ↔ min f.operandBits 32 ≤ width.bits) := by
  refine ⟨OperandType.accepts_integer_iff isValue f.operandBits, ?_, ?_⟩
  · intro operands operand z i accepted pair isInteger encoded
    have field := immediate_of_encode (arranged_of_parse parsed) encoded pair isInteger isValue
    refine ⟨_, i.code.immediate, rfl, ?_, ?_⟩
    · rw [field, length_littleEndian, Width.bits_eq]
    · have fits := (List.forall₂_iff_zip.mp (acceptsOperands_iff.mp accepted)).2 pair
      rw [isInteger, OperandType.accepts_integer_iff isValue] at fits
      rw [field]
      split
      · rename_i extended
        rw [if_pos extended] at fits
        exact Integer.signed_field (Integer.fitsSigned_iff.mpr fits)
      · exact Integer.unsigned_field z width
  · intro name isImmediate
    exact OperandType.accepts_label_iff isValue f.operandBits isImmediate name

/-- The least number of a byte that is extended to 64 bits. -/
theorem integers_keep_their_value_sample :
    Form.parse (ascii "ADD reg/mem64 imm8, 83 /0 ib") = .ok Catalog.sampleForm ∧
      Catalog.sampleForm.acceptsOperands Catalog.sampleOperands = true ∧
      ∃ i front field, Catalog.sampleForm.encode Catalog.sampleOperands = .ok i ∧
        i.code.bytes = front ++ field ∧ 8 * field.length = 8 ∧
        signedOfLittleEndian field = -128 := by
  have parsed : Form.parse (ascii "ADD reg/mem64 imm8, 83 /0 ib") = .ok Catalog.sampleForm :=
    toOption_eq_some_iff.mp (by decide +kernel)
  have accepted : Catalog.sampleForm.acceptsOperands Catalog.sampleOperands = true := by
    decide +kernel
  have succeeds : (Catalog.sampleForm.encode Catalog.sampleOperands).toOption.isSome := by
    decide +kernel
  obtain ⟨i, encoded⟩ := Option.isSome_iff_exists.mp succeeds
  rw [toOption_eq_some_iff] at encoded
  have isValue : (OperandType.immediate .byte).valueWidth? = some .byte := rfl
  obtain ⟨front, field, bytes, length, signed⟩ :=
    (integers_keep_their_value parsed isValue).2.1 Catalog.sampleOperands
      ⟨ascii "-128", .integer ⟨true, 128⟩⟩ ⟨true, 128⟩ i accepted (by decide +kernel) rfl encoded
  exact ⟨parsed, accepted, i, front, field, encoded, bytes, length, signed⟩

end Form

end Asm64
