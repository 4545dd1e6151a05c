import Asm64.Proofs.Instruction.Decoding
import Asm64.Proofs.Instruction.MemoryReading
import Asm64.Proofs.Instruction.ParsedForm
import Asm64.Proofs.Patch

/-!
# Writing numbers in the place of labels

The bytes before the displacement do not depend on the numbers among the operands, unless a number
decides how long the displacement is.  So an instruction with a label becomes the instruction with
a number when the number is written over the zeros that the label has left.
-/

namespace Asm64

/-- Writing a number into the field that waits for a label. -/
def Reference.patch (r : Reference) (number : Int) : Patch :=
  ⟨r.offset, r.size, twosComplement number⟩

/-! ### The bytes before the displacement -/

namespace OperandValue

/-- The bytes before the displacement are the same for both operands: they are equal, or a number
takes the place of a label, or they are memory operands that differ in a displacement whose length
is fixed. -/
inductive SameHead : OperandValue → OperandValue → Prop where
  | refl (value : OperandValue) : SameHead value value
  | value (name : Text) (i : Integer) : SameHead (.label name) (.integer i)
  | memory {m : Memory} {displacement : Displacement} :
      m.base = none ∨ m.base = some .instructionPointer →
      -2 ^ 31 ≤ displacement.constantPart → displacement.constantPart < 2 ^ 31 →
      SameHead (.memory m) (.memory { m with displacement })

end OperandValue

theorem Memory.fault?_withDisplacement {m : Memory} (valid : m.fault? = none)
    {displacement : Displacement} (low : -2 ^ 31 ≤ displacement.constantPart)
    (high : displacement.constantPart < 2 ^ 31) :
    ({ m with displacement } : Memory).fault? = none := by
  obtain ⟨base, index, -⟩ := faults_eq_none valid
  have inRange : ({ m with displacement } : Memory).displacementFault? = none := by
    rw [displacementFault?, Int.pow_eq]
    exact if_neg (not_or.mpr ⟨not_lt.mpr low, not_le.mpr high⟩)
  simp only [fault?, Option.orElse_eq_orElse, Option.orElse_eq_or, Option.or_eq_none_iff]
  exact ⟨base, index, inRange⟩

namespace MachineCode

/-- Memory operands that the bytes before the displacement do not tell apart. -/
theorem placeMemory_refill (c : MachineCode) {m other : Memory}
    (same : OperandValue.SameHead (.memory m) (.memory other))
    (displacement immediate : List UInt8) :
    ∃ bytes, { c with displacement, immediate }.placeMemory other =
      { c.placeMemory m with displacement := bytes, immediate } := by
  unfold placeMemory
  cases same with
  | refl =>
      split
      · exact ⟨_, rfl⟩
      · rw [placeBaseAndIndex_refill]
        unfold placeDisplacement
        split
        · exact ⟨_, rfl⟩
        · exact ⟨_, rfl⟩
        · split
          · exact ⟨_, rfl⟩
          · split
            · exact ⟨_, rfl⟩
            · exact ⟨_, rfl⟩
  | memory fixed =>
      rcases fixed with noBase | relative
      · simp only [noBase, placeBaseAndIndex_refill]
        exact ⟨_, rfl⟩
      · simp only [relative, if_true]
        exact ⟨_, rfl⟩

end MachineCode

namespace Form

open Draft MachineCode OperandValue

variable {f : Form} {d next : Draft} {type : OperandType} {value other : OperandValue}

def Draft.refill (d : Draft) (displacement immediate : List UInt8)
    (displacementLabel valueLabel : Option Text) : Draft :=
  { d with code := { d.code with displacement, immediate }, displacementLabel, valueLabel }

/-- The drafts differ in numbers and labels only. -/
def Draft.Refills (d other : Draft) : Prop :=
  ∃ displacement immediate displacementLabel valueLabel,
    other = d.refill displacement immediate displacementLabel valueLabel

theorem Draft.Refills.head {d other : Draft} (refills : d.Refills other) :
    other.code.head = d.code.head := by
  obtain ⟨_, _, _, _, rfl⟩ := refills
  rfl

theorem Placement.refills (placement : Placement f type value d next)
    (same : value.SameHead other) {d' : Draft} (refills : d.Refills d') :
    ∃ next', Placement f type other d' next' ∧ next.Refills next' := by
  obtain ⟨displacement, immediate, displacementLabel, valueLabel, rfl⟩ := refills
  cases placement with
  | fixed implied =>
      cases same
      exact ⟨_, .fixed implied, _, _, _, _, rfl⟩
  | opcodeRegister implied isRegister free general bits modifier =>
      cases same
      exact ⟨_, .opcodeRegister implied isRegister free general bits modifier, _, _, _, _, rfl⟩
  | regField implied isRegister free general bits modifier =>
      cases same
      exact ⟨_, .regField implied isRegister free general bits modifier, _, _, _, _, rfl⟩
  | rmRegister isPlace free hasModRM general bits =>
      cases same
      exact ⟨_, .rmRegister isPlace free hasModRM general bits, _, _, _, _, rfl⟩
  | @memory m _ isPlace free hasModRM valid =>
      have memory {m' : Memory} (same : SameHead (.memory m) (.memory m'))
          (valid : m'.fault? = none) : ∃ next', Placement f type (.memory m')
            (d.refill displacement immediate displacementLabel valueLabel) next' ∧
              (d.withMemory m).Refills next' := by
        obtain ⟨bytes, placed⟩ := d.code.placeMemory_refill same displacement immediate
        refine ⟨_, .memory isPlace free hasModRM valid, bytes, immediate, m'.displacement.label?,
          valueLabel, ?_⟩
        simp only [withMemory, refill, placed]
      cases same with
      | refl => exact memory (.refl _) valid
      | memory fixed low high =>
          exact memory (.memory fixed low high) (Memory.fault?_withDisplacement valid low high)
  | label isValue free bits =>
      cases same with
      | refl => exact ⟨_, .label isValue free bits, _, _, _, _, rfl⟩
      | value => exact ⟨_, .integer isValue free bits, _, _, _, _, rfl⟩
  | integer isValue free bits =>
      cases same
      exact ⟨_, .integer isValue free bits, _, _, _, _, rfl⟩

theorem placeOperands_refills {operands others : List Operand}
    (same : List.Forall₂ (fun operand other => SameHead operand.value other.value) operands others)
    {position : Nat} {types : List OperandType} {d' : Draft} (refills : d.Refills d')
    (placed : f.placeOperands position types operands d = .ok next) :
    ∃ next', f.placeOperands position types others d' = .ok next' ∧ next.Refills next' := by
  induction same generalizing position types d d' with
  | nil =>
      cases types <;>
      · simp only [placeOperands, Except.ok.injEq] at placed
        exact ⟨d', rfl, placed ▸ refills⟩
  | cons here _ inductionHypothesis =>
      cases types with
      | nil =>
          simp only [placeOperands, Except.ok.injEq] at placed
          exact ⟨d', rfl, placed ▸ refills⟩
      | cons type types =>
          simp only [placeOperands, bind_eq_ok_iff] at placed ⊢
          obtain ⟨middle, first, rest⟩ := placed
          obtain ⟨middle', placement, refills⟩ :=
            (placement_of_placeOperand first).refills here refills
          obtain ⟨next', rest, refills⟩ := inductionHypothesis refills rest
          exact ⟨next', ⟨middle', placeOperand_of_placement position placement, rest⟩, refills⟩

theorem finishModRM_refills (finished : f.finishModRM d = .ok next) {d' : Draft}
    (refills : d.Refills d') : ∃ next', f.finishModRM d' = .ok next' ∧ next.Refills next' := by
  obtain ⟨_, _, _, _, rfl⟩ := refills
  unfold finishModRM at finished ⊢
  split at finished
  · cases finished
    exact ⟨_, rfl, _, _, _, _, rfl⟩
  · split at finished
    · rename_i used
      cases finished
      exact ⟨_, if_pos used, _, _, _, _, rfl⟩
    · cases finished
  · split at finished
    · rename_i used
      cases finished
      exact ⟨_, if_pos used, _, _, _, _, rfl⟩
    · cases finished

theorem finishRex_refills (finished : finishRex d = .ok next) {d' : Draft}
    (refills : d.Refills d') : ∃ next', finishRex d' = .ok next' ∧ next.Refills next' := by
  obtain ⟨_, _, _, _, rfl⟩ := refills
  unfold finishRex at finished ⊢
  split at finished
  · rename_i wanted
    split at finished
    · cases finished
    · rename_i noHighByte
      cases finished
      simp only [refill, if_pos wanted, noHighByte]
      exact ⟨_, rfl, _, _, _, _, rfl⟩
  · rename_i unwanted
    cases finished
    exact ⟨_, if_neg unwanted, _, _, _, _, rfl⟩

/-- With a number in the place of a label an instruction begins as it did with the label. -/
theorem encode_of_sameHead {operands others : List Operand} {i : Instruction}
    (encoded : f.encode operands = .ok i)
    (same : List.Forall₂ (fun operand other => SameHead operand.value other.value) operands
      others) :
    ∃ j, f.encode others = .ok j ∧ j.code.head = i.code.head := by
  obtain ⟨code, placed, finished, final, count, started, operandsPlaced, modRM, rex, rfl⟩ :=
    encode_stages encoded
  obtain ⟨placed', operandsPlaced, refills⟩ :=
    placeOperands_refills same ⟨_, _, _, _, rfl⟩ operandsPlaced
  obtain ⟨finished', modRM, refills⟩ := finishModRM_refills modRM refills
  obtain ⟨final', rex, refills⟩ := finishRex_refills rex refills
  exact ⟨_, encode_of_stages (same.length_eq ▸ count) started operandsPlaced modRM rex,
    refills.head⟩

end Form

/-! ### The bytes of the two fields -/

namespace MachineCode

theorem apply_displacement {c : MachineCode} {bytes : List UInt8}
    (length : bytes.length = c.displacement.length) :
    overwrite c.bytes c.displacementOffset bytes = { c with displacement := bytes }.bytes :=
  overwrite_field length c.head c.immediate

theorem apply_immediate {c : MachineCode} {bytes : List UInt8}
    (length : bytes.length = c.immediate.length) :
    overwrite c.bytes c.immediateOffset bytes = { c with immediate := bytes }.bytes := by
  have written := overwrite_field length (c.head ++ c.displacement) []
  rw [List.append_nil, List.append_nil, List.length_append] at written
  exact written

theorem displacement_placeMemory_of_fixed (c : MachineCode) {m : Memory}
    (fixed : m.base = none ∨ m.base = some .instructionPointer) :
    (c.placeMemory m).displacement =
      littleEndian 4 (twosComplement m.displacement.constantPart) := by
  unfold placeMemory
  rcases fixed with noBase | relative
  · rw [noBase, if_neg (by simp)]
    rfl
  · rw [if_pos relative]
    rfl

end MachineCode

namespace Field.FilledBy

variable {field : Field} {front back : List OperandValue} {value other : OperandValue}
  {bytes otherBytes : List UInt8} {label otherLabel : Option Text} {used otherUsed : Bool}
  (filled : field.FilledBy (front ++ value :: back) bytes label used)
  (replaced : field.FilledBy (front ++ other :: back) otherBytes otherLabel otherUsed)

include filled

theorem zeros_of_label (labelled : field.label? value ≠ none) :
    bytes = List.replicate field.size 0 := by
  obtain ⟨name, isLabel⟩ := Option.ne_none_iff_exists'.mp labelled
  apply filled.zeros
  rintro rfl
  have none := filled.waits
  simp [isLabel] at none

include replaced

/-- The number in the place of a label is all that the field holds. -/
theorem content_of_label (labelled : field.label? value ≠ none) :
    otherBytes = field.content other := by
  -- The zeros of the label are the whole field, which leaves nothing for the other operands.
  have whole := filled.holds
  rw [filled.zeros_of_label labelled, ← field.zeros value labelled, List.flatMap_append,
    List.flatMap_cons] at whole
  have lengths := congrArg List.length whole
  simp only [List.length_append] at lengths
  have before : front.flatMap field.content = [] := List.length_eq_zero_iff.mp (by omega)
  have after : back.flatMap field.content = [] := List.length_eq_zero_iff.mp (by omega)
  rw [replaced.holds, List.flatMap_append, List.flatMap_cons, before, after, List.nil_append,
    List.append_nil]

theorem bytes_eq (same : field.content other = field.content value) : otherBytes = bytes := by
  rw [replaced.holds, filled.holds, List.flatMap_append, List.flatMap_cons, same,
    ← List.flatMap_cons, ← List.flatMap_append]

end Field.FilledBy

theorem Field.label?_displacement {m : Memory} {name : Text}
    (isLabel : m.displacement = .label name) : displacement.label? (.memory m) ≠ none := by
  change m.displacement.label? ≠ none
  rw [isLabel]
  exact Option.some_ne_none name

theorem Encoding.valueBits_le (e : Encoding) : e.valueBits ≤ 64 := by
  unfold valueBits
  split
  · rename_i field _
    cases field.width <;> decide
  · decide

namespace Form

open Draft MachineCode OperandValue

variable {f : Form} {operands : List Operand} {i : Instruction}

theorem zeros_of_reference (encoded : f.encode operands = .ok i) :
    ∀ r ∈ i.references, (i.code.bytes.drop r.offset).take r.size = List.replicate r.size 0 := by
  obtain ⟨d, filled, rfl⟩ := filled_of_encode encoded
  intro r member
  simp only [references, List.mem_append, Option.mem_toList, Option.map_eq_some_iff] at member
  rcases member with ⟨name, labelled, rfl⟩ | ⟨name, labelled, rfl⟩
  · simp only [bytes, displacementOffset, List.append_assoc, List.drop_left, List.take_left]
    exact filled.displacement.eq_zeros (labelled ▸ Option.some_ne_none name)
  · have offset : d.code.immediateOffset = (d.code.head ++ d.code.displacement).length :=
      List.length_append.symm
    simp only [bytes, offset, List.drop_left, List.take_length]
    exact filled.value.eq_zeros (labelled ▸ Option.some_ne_none name)

/-! ### Numbers in the place of labels -/

section Replace

variable {front back : List Operand} {operand other : Operand}

theorem sameHead_replace (same : operand.value.SameHead other.value) :
    List.Forall₂ (fun operand other => SameHead operand.value other.value)
      (front ++ operand :: back) (front ++ other :: back) :=
  have unchanged (operands : List Operand) :
      List.Forall₂ (fun operand other => SameHead operand.value other.value) operands operands :=
    List.forall₂_same.mpr fun operand _ => .refl operand.value
  List.rel_append (unchanged front) (.cons same (unchanged back))

variable (encoded : f.encode (front ++ operand :: back) = .ok i)

include encoded

/-- Both instructions begin alike, and their last two fields hold the numbers of their operands. -/
theorem exists_replaced (same : operand.value.SameHead other.value) :
    ∃ d e : Draft, i = ⟨d.code, d.references⟩ ∧
      f.encode (front ++ other :: back) = .ok ⟨e.code, e.references⟩ ∧
      e.code.head = d.code.head ∧
      d.Filled f (front.map (·.value) ++ operand.value :: back.map (·.value)) ∧
      e.Filled f (front.map (·.value) ++ other.value :: back.map (·.value)) := by
  obtain ⟨j, encodedOther, head⟩ := encode_of_sameHead encoded (sameHead_replace same)
  obtain ⟨d, filled, rfl⟩ := filled_of_encode encoded
  obtain ⟨e, replaced, rfl⟩ := filled_of_encode encodedOther
  rw [List.map_append, List.map_cons] at filled replaced
  exact ⟨d, e, rfl, encodedOther, head, filled, replaced⟩

/-- An integer leaves the same bytes as a label, and its own in the place of the zeros. -/
theorem encode_integer {name : Text} (isLabel : operand.value = .label name) {z : Integer}
    (isInteger : other.value = .integer z) :
    ∃ j, f.encode (front ++ other :: back) = .ok j ∧
      ((i.valueReference (f.encoding.valueBits / 8) name).patch z.value).apply i.code.bytes =
        j.code.bytes := by
  have same : operand.value.SameHead other.value := by
    rw [isLabel, isInteger]
    exact .value name z
  obtain ⟨d, e, rfl, encodedOther, head, filled, replaced⟩ := exists_replaced encoded same
  rw [isLabel] at filled
  rw [isInteger] at replaced
  have labelled : f.valueField.label? (.label name) ≠ none := Option.some_ne_none name
  have length : (littleEndian (f.encoding.valueBits / 8) (twosComplement z.value)).length =
      d.code.immediate.length := by
    rw [filled.value.zeros_of_label labelled, List.length_replicate, length_littleEndian]
    rfl
  have displacement : e.code.displacement = d.code.displacement :=
    filled.displacement.bytes_eq replaced.displacement rfl
  have immediate : e.code.immediate =
      littleEndian (f.encoding.valueBits / 8) (twosComplement z.value) := by
    rw [← z.toNat_toUInt64]
    exact filled.value.content_of_label replaced.value labelled
  refine ⟨_, encodedOther, (apply_immediate length).trans ?_⟩
  rw [MachineCode.bytes, MachineCode.bytes, head, displacement, immediate]
  rfl

variable {m : Memory} {name : Text} (isMemory : operand.value = .memory m)
  (isLabel : m.displacement = .label name)

include isMemory isLabel

theorem displacement_of_label : i.code.displacement = List.replicate 4 0 := by
  obtain ⟨d, filled, rfl⟩ := filled_of_encode encoded
  rw [List.map_append, List.map_cons, isMemory] at filled
  exact filled.displacement.zeros_of_label (Field.label?_displacement isLabel)

theorem apply_displacementReference (number : Int) :
    ((i.displacementReference name).patch number).apply i.code.bytes =
      { i.code with displacement := littleEndian 4 (twosComplement number) }.bytes := by
  apply apply_displacement
  rw [displacement_of_label encoded isMemory isLabel, Patch.length_bytes, List.length_replicate]
  rfl

variable {number : Int} (low : -2 ^ 31 ≤ number) (high : number < 2 ^ 31)

include low high

/-- If the displacement has four bytes anyway, a number leaves the same bytes as a label, and its
own in the place of the zeros. -/
theorem encode_constant (fixed : m.base = none ∨ m.base = some .instructionPointer)
    (isConstant : other.value = .memory { m with displacement := .constant number }) :
    ∃ j, f.encode (front ++ other :: back) = .ok j ∧
      ((i.displacementReference name).patch number).apply i.code.bytes = j.code.bytes := by
  have same : operand.value.SameHead other.value := by
    rw [isMemory, isConstant]
    exact .memory fixed low high
  have patched := apply_displacementReference encoded isMemory isLabel number
  obtain ⟨d, e, rfl, encodedOther, head, filled, replaced⟩ := exists_replaced encoded same
  rw [isMemory] at filled
  rw [isConstant] at replaced
  have immediate : e.code.immediate = d.code.immediate :=
    filled.value.bytes_eq replaced.value rfl
  have displacement : e.code.displacement = littleEndian 4 (twosComplement number) := by
    rw [filled.displacement.content_of_label replaced.displacement
      (Field.label?_displacement isLabel)]
    exact displacement_placeMemory_of_fixed _ fixed
  refine ⟨_, encodedOther, patched.trans ?_⟩
  rw [MachineCode.bytes, MachineCode.bytes, head, displacement, immediate]
  rfl

/-- Whatever the base, the processor reads the number that is written over the zeros. -/
theorem memory_of_patched (arranged : f.Arranged) :
    f.ReadsMemory (((i.displacementReference name).patch number).apply i.code.bytes)
        (.memory m.base m.index number) ∧
      (f.Regular → (Decoder.readFields? f.encoding
        (((i.displacementReference name).patch number).apply i.code.bytes)).map (·.memory) =
          some (.memory m.base m.index number)) := by
  have zeros := displacement_of_label encoded isMemory isLabel
  rw [apply_displacementReference encoded isMemory isLabel]
  obtain ⟨d, complete, rfl⟩ := complete_of_encode arranged encoded
  obtain ⟨opcodeLow, framed⟩ := complete.framed
  have addresses : Addresses d.code m.base m.index m.displacement.constantPart := by
    obtain ⟨type, shown⟩ := exists_of_forall₂ complete.shown.flip
      (List.mem_append_right front List.mem_cons_self)
    rw [isMemory] at shown
    cases shown with
    | memory isPlace used addresses => exact addresses
  have hasModRM : f.encoding.modRM ≠ .none := by
    intro noModRM
    have empty := (framed.noAddress noModRM).2.2.2
    rw [show d.code.displacement = _ from zeros] at empty
    cases empty
  have length : (littleEndian 4 (twosComplement number)).length = d.code.displacement.length := by
    rw [show d.code.displacement = _ from zeros, length_littleEndian, List.length_replicate]
  have patched := framed.withDisplacement length
  have addresses := addresses.withDisplacement length
  rw [signed_displacement_dword low high] at addresses
  exact ⟨patched.readsMemory addresses hasModRM
      (arranged.onePlace.resolve_right hasModRM),
    fun regular => patched.memory_of_readFields? addresses regular⟩

end Replace

/-- The references of an instruction are those of its operands with labels, the displacement first;
their fields lie in the instruction without overlapping and hold zeros.  When a number is written
into the field of a value, the bytes are those of the instruction with the number in the place of
the label.  When it is written into a displacement, they are so if the displacement has four bytes
anyway, and in any case the processor reads the number next to the same base and index. -/
theorem patched_labels_are_numbers {t : Text} (parsed : Form.parse t = .ok f)
    (encoded : f.encode operands = .ok i) :
    i.references =
        (operands.filterMap (·.value.displacementLabel?)).map i.displacementReference ++
        (operands.filterMap (·.value.valueLabel?)).map
          (i.valueReference (f.encoding.valueBits / 8)) ∧
    (∀ r ∈ i.references, r.offset + r.size ≤ r.relativeTo ∧ r.relativeTo = i.code.bytes.length ∧
      (i.code.bytes.drop r.offset).take r.size = List.replicate r.size 0) ∧
    i.references.Pairwise (fun r s => r.offset + r.size ≤ s.offset) ∧
    (∀ front back text name, operands = front ++ ⟨text, .label name⟩ :: back →
      ∀ (number : Int) (literal : Text), -2 ^ (f.encoding.valueBits - 1) ≤ number →
        number < 2 ^ (f.encoding.valueBits - 1) →
        ∃ j, f.encode (front ++ ⟨literal, .integer (.ofInt number)⟩ :: back) = .ok j ∧
          ((i.valueReference (f.encoding.valueBits / 8) name).patch number).apply i.code.bytes =
            j.code.bytes) ∧
    ∀ front back text m name, operands = front ++ ⟨text, .memory m⟩ :: back →
      m.displacement = .label name →
      ∀ number : Int, -2 ^ 31 ≤ number → number < 2 ^ 31 →
        (m.base = none ∨ m.base = some .instructionPointer → ∀ literal : Text,
          ∃ j, f.encode (front ++ ⟨literal, .memory { m with displacement := .constant number }⟩ ::
              back) = .ok j ∧
            ((i.displacementReference name).patch number).apply i.code.bytes = j.code.bytes) ∧
        f.ReadsMemory (((i.displacementReference name).patch number).apply i.code.bytes)
          (.memory m.base m.index number) ∧
        (f.Regular → (Decoder.readFields? f.encoding
          (((i.displacementReference name).patch number).apply i.code.bytes)).map (·.memory) =
            some (.memory m.base m.index number)) := by
  refine ⟨references_of_encode encoded, ?_, encode_references_ordered encoded, ?_, ?_⟩
  · intro r member
    have inBounds := encode_references_inBounds encoded r member
    exact ⟨inBounds.relativeTo ▸ inBounds.field, inBounds.relativeTo,
      zeros_of_reference encoded r member⟩
  · rintro front back text name rfl number literal low high
    have narrow : (2 : Int) ^ (f.encoding.valueBits - 1) ≤ 2 ^ 63 :=
      pow_le_pow_right₀ (by decide) (by have := f.encoding.valueBits_le; omega)
    have value : (Integer.ofInt number).value = number :=
      Integer.value_ofInt (by omega) (by omega)
    have integer := encode_integer encoded rfl
      (show (Operand.mk literal (.integer (.ofInt number))).value = _ from rfl)
    rwa [value] at integer
  · rintro front back text m name rfl isLabel number low high
    exact ⟨fun fixed literal => encode_constant encoded rfl isLabel low high fixed rfl,
      memory_of_patched encoded rfl isLabel low high (arranged_of_parse parsed)⟩

def sampleAddition : Form :=
  Catalog.form "ADD" [Catalog.rm .dword, Catalog.imm .dword] [0x81] ((Catalog.slash 0).imm .dword)

def sampleOperands (base : Register) (index : Option ScaledIndex) (displacement : Displacement)
    (value : OperandValue) : List Operand :=
  [⟨[], .memory ⟨some base, index, displacement, none⟩⟩, ⟨[], value⟩]

/-- Two labels in one instruction, and a label next to registers for which a byte would do. -/
theorem patched_labels_are_numbers_sample :
    Form.parse (ascii "ADD reg/mem32 imm32, 81 /0 id") = .ok sampleAddition ∧
    (∃ i, sampleAddition.encode (sampleOperands .instructionPointer none (.label (ascii "table"))
        (.label (ascii "limit"))) = .ok i ∧
      i.references = [i.displacementReference (ascii "table"),
        i.valueReference 4 (ascii "limit")] ∧
      (∃ j, sampleAddition.encode (sampleOperands .instructionPointer none (.constant (-5))
          (.label (ascii "limit"))) = .ok j ∧
        ((i.displacementReference (ascii "table")).patch (-5)).apply i.code.bytes =
          j.code.bytes) ∧
      ∃ j, sampleAddition.encode (sampleOperands .instructionPointer none (.label (ascii "table"))
          (.integer (.ofInt (-7)))) = .ok j ∧
        ((i.valueReference 4 (ascii "limit")).patch (-7)).apply i.code.bytes = j.code.bytes) ∧
    ∃ i, sampleAddition.encode (sampleOperands (.general .qword 13)
        (some ⟨.general .qword 12, .eight⟩) (.label (ascii "table")) (.label (ascii "limit"))) =
          .ok i ∧
      sampleAddition.ReadsMemory
        (((i.displacementReference (ascii "table")).patch (-5)).apply i.code.bytes)
        (.memory (some (.general .qword 13)) (some ⟨.general .qword 12, .eight⟩) (-5)) := by
  have parsed : Form.parse (ascii "ADD reg/mem32 imm32, 81 /0 id") = .ok sampleAddition :=
    toOption_eq_some_iff.mp (by decide +kernel)
  refine ⟨parsed, ?_, ?_⟩
  · have succeeds : (sampleAddition.encode (sampleOperands .instructionPointer none
        (.label (ascii "table")) (.label (ascii "limit")))).toOption.isSome := by decide +kernel
    obtain ⟨i, encoded⟩ := Option.isSome_iff_exists.mp succeeds
    rw [toOption_eq_some_iff] at encoded
    obtain ⟨references, -, -, value, displacement⟩ := patched_labels_are_numbers parsed encoded
    refine ⟨i, encoded, references, ?_, ?_⟩
    · exact (displacement [] _ [] _ _ rfl rfl (-5) (by decide) (by decide)).1 (Or.inr rfl) []
    · exact value [_] [] [] _ rfl (-7) [] (by decide) (by decide)
  · have succeeds : (sampleAddition.encode (sampleOperands (.general .qword 13)
        (some ⟨.general .qword 12, .eight⟩) (.label (ascii "table"))
        (.label (ascii "limit")))).toOption.isSome := by decide +kernel
    obtain ⟨i, encoded⟩ := Option.isSome_iff_exists.mp succeeds
    rw [toOption_eq_some_iff] at encoded
    obtain ⟨-, -, -, -, displacement⟩ := patched_labels_are_numbers parsed encoded
    exact ⟨i, encoded, (displacement [] _ [] _ _ rfl rfl (-5) (by decide) (by decide)).2.1⟩

end Form

end Asm64
