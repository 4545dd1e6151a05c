import Mathlib.Tactic
import Asm64.Proofs.Instruction.Placement
import Asm64.Proofs.Word

/-!
# The references of an instruction

The displacement and the value of an instruction hold the numbers of its operands, and zeros where
an operand has a label.  The fields that wait for a label lie in the bytes of the instruction, one
behind the other, and the distance is measured from the end of the instruction.
-/

namespace Asm64

structure Reference.InBounds (r : Reference) (length : Nat) : Prop where
  size : r.size = 1 ∨ r.size = 2 ∨ r.size = 4 ∨ r.size = 8
  field : r.offset + r.size ≤ length
  relativeTo : r.relativeTo = length

namespace Instruction

def displacementReference (i : Instruction) (name : Text) : Reference :=
  ⟨name, i.code.displacementOffset, 4, i.code.bytes.length⟩

def valueReference (i : Instruction) (size : Nat) (name : Text) : Reference :=
  ⟨name, i.code.immediateOffset, size, i.code.bytes.length⟩

end Instruction

/-! ### The numbers of operands -/

namespace MachineCode

theorem placeBaseAndIndex_refill (c : MachineCode) (base : Option Register)
    (index : Option ScaledIndex) (displacement immediate : List UInt8) :
    { c with displacement, immediate }.placeBaseAndIndex base index =
      { c.placeBaseAndIndex base index with displacement, immediate } := by
  cases index with
  | some index => cases base <;> rfl
  | none =>
      cases base with
      | none => rfl
      | some r =>
          dsimp only [placeBaseAndIndex]
          split <;> rfl

theorem displacement_placeBaseAndIndex (c : MachineCode) (base : Option Register)
    (index : Option ScaledIndex) :
    (c.placeBaseAndIndex base index).displacement = c.displacement :=
  (congrArg displacement (c.placeBaseAndIndex_refill base index c.displacement c.immediate)).trans
    rfl

theorem immediate_placeBaseAndIndex (c : MachineCode) (base : Option Register)
    (index : Option ScaledIndex) : (c.placeBaseAndIndex base index).immediate = c.immediate :=
  (congrArg immediate (c.placeBaseAndIndex_refill base index c.displacement c.immediate)).trans
    rfl

theorem immediate_placeDisplacement (c : MachineCode) (base : Option Register)
    (displacement : Displacement) :
    (c.placeDisplacement base displacement).immediate = c.immediate := by
  cases base with
  | none => rfl
  | some r =>
      cases displacement with
      | label name => rfl
      | constant value =>
          dsimp only [placeDisplacement]
          split
          · rfl
          · split <;> rfl

theorem immediate_placeMemory (c : MachineCode) (m : Memory) :
    (c.placeMemory m).immediate = c.immediate := by
  unfold placeMemory
  split
  · rfl
  · rw [immediate_placeDisplacement, immediate_placeBaseAndIndex]

theorem displacement_placeMemory_of_label {m : Memory} {name : Text} (c : MachineCode)
    (labelled : m.displacement.label? = some name) :
    (c.placeMemory m).displacement = List.replicate 4 0 := by
  cases displacement : m.displacement with
  | constant value => simp [displacement, Displacement.label?] at labelled
  | label other =>
      have zeros : littleEndian 4 (twosComplement 0) = List.replicate 4 0 := littleEndian_zero 4
      unfold placeMemory
      rw [displacement]
      split
      · exact zeros
      · cases m.base with
        | none => exact zeros
        | some r => exact zeros

end MachineCode

namespace OperandValue

def displacementLabel? : OperandValue → Option Text
  | memory m => m.displacement.label?
  | _ => none

def valueLabel? : OperandValue → Option Text
  | label name => some name
  | _ => none

/-- What the operand leaves in the displacement. -/
def displacement : OperandValue → List UInt8
  | memory m => (MachineCode.empty.placeMemory m).displacement
  | _ => []

/-- What the operand leaves in a value of `size` bytes. -/
def immediate (size : Nat) : OperandValue → List UInt8
  | label _ => List.replicate size 0
  | integer i => littleEndian size i.toUInt64.toNat
  | _ => []

end OperandValue

theorem MachineCode.displacement_placeMemory {c : MachineCode} (empty : c.displacement = [])
    (m : Memory) : (c.placeMemory m).displacement = (OperandValue.memory m).displacement := by
  rw [OperandValue.displacement]
  unfold placeMemory
  split
  · rfl
  · unfold placeDisplacement
    split
    · rfl
    · rfl
    · split
      · dsimp only
        rw [displacement_placeBaseAndIndex, displacement_placeBaseAndIndex, empty]
        rfl
      · split
        · rfl
        · rfl

/-! ### Fields that hold numbers -/

/-- A field that operands fill with numbers.  A label leaves zeros there. -/
structure Field where
  size : Nat
  content : OperandValue → List UInt8
  label? : OperandValue → Option Text
  zeros : ∀ value, label? value ≠ none → content value = List.replicate size 0

namespace Field

open OperandValue

def displacement : Field where
  size := 4
  content := OperandValue.displacement
  label? := displacementLabel?
  zeros value labelled := by
    cases value with
    | memory m =>
        obtain ⟨name, isLabel⟩ := Option.ne_none_iff_exists'.mp labelled
        exact MachineCode.displacement_placeMemory_of_label _ isLabel
    | _ => exact absurd rfl labelled

def value (size : Nat) : Field where
  size := size
  content := immediate size
  label? := valueLabel?
  zeros value labelled := by
    cases value with
    | label name => rfl
    | _ => exact absurd rfl labelled

/-- What a field holds after some operands.  Only one of them can use it. -/
structure FilledBy (field : Field) (values : List OperandValue) (bytes : List UInt8)
    (label : Option Text) (used : Bool) : Prop where
  holds : bytes = values.flatMap field.content
  waits : label.toList = values.filterMap field.label?
  zeros : label ≠ none → bytes = List.replicate field.size 0
  unused : used = false → bytes = [] ∧ label = none

namespace FilledBy

variable {field : Field} {values : List OperandValue} {bytes : List UInt8} {label : Option Text}
  {used : Bool}

theorem nil (field : Field) (used : Bool) : field.FilledBy [] [] none used :=
  ⟨rfl, rfl, absurd rfl, fun _ => ⟨rfl, rfl⟩⟩

variable (filled : field.FilledBy values bytes label used)

include filled

theorem length_of_label (labelled : label ≠ none) : bytes.length = field.size := by
  rw [filled.zeros labelled, List.length_replicate]

theorem eq_zeros (labelled : label ≠ none) : bytes = List.replicate bytes.length 0 := by
  rw [filled.length_of_label labelled]
  exact filled.zeros labelled

theorem used_of_label (labelled : label ≠ none) : used = true := by
  by_contra unused
  exact labelled (filled.unused (Bool.eq_false_of_not_eq_true unused)).2

theorem skip {value : OperandValue} (noContent : field.content value = [])
    (noLabel : field.label? value = none) {nextUsed : Bool}
    (kept : nextUsed = false → used = false) :
    field.FilledBy (values ++ [value]) bytes label nextUsed where
  holds := by simp [filled.holds, noContent]
  waits := by simp [filled.waits, noLabel]
  zeros := filled.zeros
  unused := filled.unused ∘ kept

theorem put (free : used = false) (value : OperandValue) :
    field.FilledBy (values ++ [value]) (field.content value) (field.label? value) true where
  holds := by
    obtain ⟨empty, -⟩ := filled.unused free
    rw [List.flatMap_append, ← filled.holds, empty]
    simp
  waits := by
    obtain ⟨-, none⟩ := filled.unused free
    rw [List.filterMap_append, ← filled.waits, none]
    cases isLabel : field.label? value <;> simp [isLabel]
  zeros := field.zeros value
  unused := Bool.noConfusion

end FilledBy

end Field

namespace Form

open Draft MachineCode OperandValue

variable {f : Form} {d next : Draft} {type : OperandType} {value : OperandValue}

def valueField (f : Form) : Field := .value (f.encoding.valueBits / 8)

/-- What a draft holds in its last two fields after some operands. -/
structure Draft.Filled (f : Form) (d : Draft) (values : List OperandValue) : Prop where
  displacement : Field.displacement.FilledBy values d.code.displacement d.displacementLabel
    d.usedRegisterOrMemory
  value : f.valueField.FilledBy values d.code.immediate d.valueLabel d.usedValue
  width : d.usedValue = true → ∃ width : Width, f.encoding.valueBits = width.bits

theorem Placement.filled (placement : Placement f type value d next) {values : List OperandValue}
    (filled : d.Filled f values) : next.Filled f (values ++ [value]) := by
  cases placement with
  | fixed | opcodeRegister | regField =>
      exact ⟨filled.displacement.skip rfl rfl id, filled.value.skip rfl rfl id, filled.width⟩
  | rmRegister =>
      exact ⟨filled.displacement.skip rfl rfl Bool.noConfusion, filled.value.skip rfl rfl id,
        filled.width⟩
  | @memory m _ isPlace free =>
      have content : (d.withMemory m).code.displacement = Field.displacement.content (.memory m) :=
        displacement_placeMemory (filled.displacement.unused free).1 m
      refine ⟨?_, ?_, filled.width⟩
      · rw [content]
        exact filled.displacement.put free (.memory m)
      · rw [withMemory, immediate_placeMemory]
        exact filled.value.skip rfl rfl id
  | @label width name _ isValue free bits =>
      have content : (d.withLabel width name).code.immediate =
          f.valueField.content (.label name) := by
        change littleEndian width.bytes 0 = List.replicate (f.encoding.valueBits / 8) 0
        rw [littleEndian_zero, bits, width.bits_eq, Nat.mul_div_cancel_left _ (by decide)]
      refine ⟨filled.displacement.skip rfl rfl id, ?_, fun _ => ⟨width, bits⟩⟩
      rw [content]
      exact filled.value.put free (.label name)
  | @integer width i _ isValue free bits =>
      have content : (d.withInteger width i).code.immediate =
          f.valueField.content (.integer i) := by
        change littleEndian width.bytes _ = littleEndian (f.encoding.valueBits / 8) _
        rw [bits, width.bits_eq, Nat.mul_div_cancel_left _ (by decide)]
      -- The place has been free, so that no label is left from before.
      have noLabel : (d.withInteger width i).valueLabel = f.valueField.label? (.integer i) :=
        (filled.value.unused free).2
      refine ⟨filled.displacement.skip rfl rfl id, ?_, fun _ => ⟨width, bits⟩⟩
      rw [content, noLabel]
      exact filled.value.put free (.integer i)

theorem placeOperands_filled {position : Nat} {types : List OperandType} {operands : List Operand}
    (count : operands.length = types.length) {values : List OperandValue}
    (filled : d.Filled f values) (placed : f.placeOperands position types operands d = .ok next) :
    next.Filled f (values ++ operands.map (·.value)) := by
  induction types generalizing position operands d values with
  | nil =>
      simp only [placeOperands, Except.ok.injEq] at placed
      cases List.length_eq_zero_iff.mp count
      subst placed
      rw [List.map_nil, List.append_nil]
      exact filled
  | cons type types inductionHypothesis =>
      cases operands with
      | nil => cases count
      | cons operand operands =>
          simp only [placeOperands, bind_eq_ok_iff] at placed
          obtain ⟨middle, first, rest⟩ := placed
          rw [List.map_cons, List.append_cons]
          exact inductionHypothesis (Nat.succ.inj count)
            ((placement_of_placeOperand first).filled filled) rest

theorem filled_start {code : MachineCode} (started : f.start = .ok code) :
    (ofCode code).Filled f [] := by
  simp only [start, mapError_eq_ok_iff, setOpcode] at started
  split at started
  · cases started
  · cases started
    exact ⟨.nil _ _, .nil _ _, Bool.noConfusion⟩

/-- The displacement and the value are the same, and so are the labels that they wait for and
whether they are in use. -/
structure Draft.SameFields (d next : Draft) : Prop where
  displacement : next.code.displacement = d.code.displacement
  value : next.code.immediate = d.code.immediate
  displacementLabel : next.displacementLabel = d.displacementLabel
  valueLabel : next.valueLabel = d.valueLabel
  usedRegisterOrMemory : next.usedRegisterOrMemory = d.usedRegisterOrMemory
  usedValue : next.usedValue = d.usedValue

/-- What remains to be done after the operands concerns the bytes before the displacement. -/
theorem sameFields_of_finish {middle final : Draft} (modRM : f.finishModRM d = .ok middle)
    (rex : finishRex middle = .ok final) : d.SameFields final := by
  have first : d.SameFields middle := by
    unfold finishModRM at modRM
    split at modRM
    · cases modRM
      exact ⟨rfl, rfl, rfl, rfl, rfl, rfl⟩
    · split at modRM <;> cases modRM
      exact ⟨rfl, rfl, rfl, rfl, rfl, rfl⟩
    · split at modRM <;> cases modRM
      exact ⟨rfl, rfl, rfl, rfl, rfl, rfl⟩
  unfold finishRex at rex
  split at rex
  · split at rex <;> cases rex
    exact { first with }
  · cases rex
    exact first

theorem Draft.Filled.of_sameFields {values : List OperandValue} (filled : d.Filled f values)
    (same : d.SameFields next) : next.Filled f values where
  displacement := by
    rw [same.displacement, same.displacementLabel, same.usedRegisterOrMemory]
    exact filled.displacement
  value := by
    rw [same.value, same.valueLabel, same.usedValue]
    exact filled.value
  width := by
    rw [same.usedValue]
    exact filled.width

variable {operands : List Operand} {i : Instruction}

/-- The displacement and the value of an instruction hold the numbers of its operands. -/
theorem filled_of_encode (encoded : f.encode operands = .ok i) :
    ∃ d : Draft, d.Filled f (operands.map (·.value)) ∧ i = ⟨d.code, d.references⟩ := by
  obtain ⟨code, placed, finished, final, count, started, operandsPlaced, modRM, rex, rfl⟩ :=
    encode_stages encoded
  have filled := placeOperands_filled count (filled_start started) operandsPlaced
  exact ⟨final, filled.of_sameFields (sameFields_of_finish modRM rex), rfl⟩

/-! ### References -/

/-- There is one reference for each operand with a label, that of the displacement first. -/
theorem references_of_encode (encoded : f.encode operands = .ok i) :
    i.references =
      (operands.filterMap (·.value.displacementLabel?)).map i.displacementReference ++
      (operands.filterMap (·.value.valueLabel?)).map
        (i.valueReference (f.encoding.valueBits / 8)) := by
  obtain ⟨d, filled, rfl⟩ := filled_of_encode encoded
  have displacement : d.displacementLabel.toList =
      operands.filterMap (·.value.displacementLabel?) :=
    filled.displacement.waits.trans List.filterMap_map
  have value : d.valueLabel.toList = operands.filterMap (·.value.valueLabel?) :=
    filled.value.waits.trans List.filterMap_map
  have reference {label : Option Text} {length size : Nat} (offset : Nat)
      (sized : label ≠ none → length = size) :
      (label.map fun name => Reference.mk name offset length d.code.length).toList =
        label.toList.map fun name => ⟨name, offset, size, d.code.bytes.length⟩ := by
    rw [length_bytes]
    cases label with
    | none => rfl
    | some name =>
        rw [sized (Option.some_ne_none name)]
        rfl
  rw [← displacement, ← value]
  exact congrArg₂ (· ++ ·) (reference d.code.displacementOffset filled.displacement.length_of_label)
    (reference d.code.immediateOffset filled.value.length_of_label)

theorem Draft.references_inBounds {values : List OperandValue} (filled : d.Filled f values) :
    ∀ r ∈ d.references, r.InBounds d.code.bytes.length := by
  intro r member
  rw [length_bytes]
  simp only [references, List.mem_append, Option.mem_toList, Option.map_eq_some_iff] at member
  rcases member with ⟨name, labelled, rfl⟩ | ⟨name, labelled, rfl⟩
  · have size : d.code.displacement.length = 4 :=
      filled.displacement.length_of_label (labelled ▸ Option.some_ne_none name)
    refine ⟨by simp [size], ?_, rfl⟩
    simp only [MachineCode.length, immediateOffset]
    omega
  · have labelled : d.valueLabel ≠ none := labelled ▸ Option.some_ne_none name
    have size : d.code.immediate.length = f.encoding.valueBits / 8 :=
      filled.value.length_of_label labelled
    obtain ⟨width, bits⟩ := filled.width (filled.value.used_of_label labelled)
    refine ⟨?_, Nat.le_refl _, rfl⟩
    dsimp only
    rw [size, bits]
    cases width <;> decide

theorem Draft.references_ordered (d : Draft) :
    d.references.Pairwise fun r s => r.offset + r.size ≤ s.offset := by
  unfold Draft.references
  cases d.displacementLabel <;> cases d.valueLabel <;> simp [immediateOffset]

theorem encode_references_inBounds (encoded : f.encode operands = .ok i) :
    ∀ r ∈ i.references, r.InBounds i.code.bytes.length := by
  obtain ⟨d, filled, rfl⟩ := filled_of_encode encoded
  exact references_inBounds filled

theorem encode_references_ordered (encoded : f.encode operands = .ok i) :
    i.references.Pairwise fun r s => r.offset + r.size ≤ s.offset := by
  obtain ⟨d, -, rfl⟩ := filled_of_encode encoded
  exact d.references_ordered

end Form

end Asm64
