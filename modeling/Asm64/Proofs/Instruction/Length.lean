import Asm64.Proofs.Instruction.References
import Asm64.Proofs.Instruction.RexPrefix

/-!
# The length of an instruction

The length of an instruction is that of the fields which its form says are there, that of the
fields of its memory operand, and one byte if there is a REX prefix.  So two forms that encode the
same operands differ in length only by the fields of the forms and by the prefix.
-/

namespace Asm64

/-! ### The SIB byte -/

/-- Whether the instruction needs a SIB byte for the operand.  Without an index, that is so if there
is no base, or if the low bits of the base stand for a SIB byte. -/
def Memory.usesSib (m : Memory) : Bool :=
  m.base ≠ some .instructionPointer &&
    (m.index.isSome || m.base.all fun r => r.code.low = Sib.baseStackPointer)

def OperandValue.usesSib : OperandValue → Bool
  | memory m => m.usesSib
  | _ => false

namespace MachineCode

theorem usesSib_placeDisplacement (c : MachineCode) (base : Option Register)
    (displacement : Displacement) :
    (c.placeDisplacement base displacement).usesSib = c.usesSib := by
  cases base with
  | none => rfl
  | some r =>
      cases displacement with
      | label name => rfl
      | constant d =>
          unfold placeDisplacement
          dsimp only
          split
          · rfl
          · split <;> rfl

theorem usesSib_placeBaseAndIndex {c : MachineCode} (unused : c.usesSib = false)
    (base : Option Register) (index : Option ScaledIndex) :
    (c.placeBaseAndIndex base index).usesSib =
      (index.isSome || base.all fun r => r.code.low = Sib.baseStackPointer) := by
  cases index with
  | some index => rfl
  | none =>
      cases base with
      | none => rfl
      | some r =>
          unfold placeBaseAndIndex
          dsimp only
          split
          · rename_i needed
            rcases needed with none | isStackPointer
            · cases none
            · simp [isStackPointer]
          · rename_i unneeded
            simp [not_or.mp unneeded, unused]

theorem usesSib_placeMemory {c : MachineCode} (unused : c.usesSib = false) (m : Memory) :
    (c.placeMemory m).usesSib = m.usesSib := by
  unfold placeMemory Memory.usesSib
  split
  · rename_i pointer
    rw [pointer]
    exact unused
  · rename_i notPointer
    rw [usesSib_placeDisplacement, usesSib_placeBaseAndIndex unused, decide_eq_true notPointer,
      Bool.true_and]

end MachineCode

namespace Form

open Draft MachineCode

variable {f : Form} {d next : Draft} {operands : List Operand} {i : Instruction}

theorem Placement.usesSib {type : OperandType} {value : OperandValue}
    (placement : Placement f type value d next)
    (blank : d.usedRegisterOrMemory = false → d.code.usesSib = false) :
    next.code.usesSib = (d.code.usesSib || value.usesSib) := by
  cases placement with
  | memory isPlace unused =>
      have absent := blank unused
      rw [absent, Bool.false_or]
      exact usesSib_placeMemory absent _
  | _ => exact (Bool.or_false _).symm

theorem usesSib_of_placeOperands (arranged : f.Arranged) {position : Nat}
    {types : List OperandType} (count : operands.length = types.length)
    (inForm : types ⊆ f.operands) (progress : d.Progress f)
    (placed : f.placeOperands position types operands d = .ok next) :
    next.code.usesSib = (d.code.usesSib || operands.any (·.value.usesSib)) := by
  induction types generalizing position operands d with
  | nil =>
      simp only [placeOperands, Except.ok.injEq] at placed
      cases List.length_eq_zero_iff.mp count
      subst placed
      rw [List.any_nil, Bool.or_false]
  | cons type types inductionHypothesis =>
      cases operands with
      | nil => cases count
      | cons operand operands =>
          simp only [placeOperands, bind_eq_ok_iff] at placed
          obtain ⟨middle, first, rest⟩ := placed
          obtain ⟨here, later⟩ := List.cons_subset.mp inForm
          have placement := placement_of_placeOperand first
          have middleProgress :=
            (progress_and_extends_of_placement progress arranged here placement).1
          rw [List.any_cons, ← Bool.or_assoc,
            ← placement.usesSib fun unused => (progress.blank unused).usesSib]
          exact inductionHypothesis (Nat.succ.inj count) later middleProgress rest

/-! ### Fields -/

/-- The bytes that every instruction of the form has. -/
def plainLength (f : Form) : Nat :=
  (if f.operandBits = 16 then 1 else 0) + f.encoding.opcode.length +
    (if f.encoding.modRM = .none then 0 else 1) + f.encoding.valueBits / 8

/-- The bytes behind the ModR/M byte that the memory operand takes. -/
def addressLength (operands : List Operand) : Nat :=
  (operands.any (·.value.usesSib)).toNat + (operands.flatMap (·.value.displacement)).length

theorem length_optionalByte (present : Bool) (byte : UInt8) :
    (optionalByte present byte).length = present.toNat := by
  cases present <;> rfl

theorem length_addToLast {opcode : List UInt8} (nonempty : opcode ≠ []) (low : UInt8) :
    (addToLast opcode low).length = opcode.length := by
  have positive := List.length_pos_iff.mpr nonempty
  simp only [addToLast, List.getLast?_eq_some_getLast nonempty, List.length_append,
    List.length_dropLast, List.length_singleton]
  omega

theorem length_opcode_of_framed {c : MachineCode} {opcodeLow : UInt8}
    (framed : Framed f c opcodeLow) : c.opcode.length = f.encoding.opcode.length := by
  by_cases modifier : f.encoding.registerModifier = none
  · rw [(framed.plain modifier).1]
  · rw [(framed.holdsRegister modifier).1, length_addToLast framed.hasOpcode]

/-- Only the REX prefix depends on more than the form and the memory operand. -/
theorem length_of_encode (arranged : f.Arranged) (encoded : f.encode operands = .ok i) :
    i.code.bytes.length =
      f.plainLength + addressLength operands + (i.code.rex.byte != 0).toNat := by
  obtain ⟨code, placed, middle, final, count, started, operandsPlaced, modRM, rex, rfl⟩ :=
    encode_stages encoded
  obtain ⟨initial, hasOpcode⟩ := progress_start started
  obtain ⟨progress, -, shown⟩ :=
    shown_of_placeOperands arranged (List.Subset.refl _) count initial operandsPlaced
  have completed := completed_of_finish progress modRM rex
  obtain ⟨opcodeLow, framed⟩ := exists_framed arranged progress shown hasOpcode completed
  have legacy : (final.code.legacy != 0).toNat = if f.operandBits = 16 then 1 else 0 := by
    rw [completed.legacy, progress.legacy]
    split <;> rfl
  have usesModRM : final.code.usesModRM.toNat = if f.encoding.modRM = .none then 0 else 1 := by
    rw [framed.usesModRM]
    split
    · rename_i absent
      rw [decide_eq_false (not_not.mpr absent)]
      rfl
    · rename_i present
      rw [decide_eq_true present]
      rfl
  have usesSib : final.code.usesSib = operands.any (·.value.usesSib) := by
    have unused := (initial.blank rfl).usesSib
    rw [completed.address.usesSib,
      usesSib_of_placeOperands arranged count (List.Subset.refl _) initial operandsPlaced, unused,
      Bool.false_or]
  have displacement : final.code.displacement = operands.flatMap (·.value.displacement) := by
    have filled := placeOperands_filled count (filled_start started) operandsPlaced
    have holds := (filled.of_sameFields (sameFields_of_finish modRM rex)).displacement.holds
    rwa [List.nil_append, List.flatMap_map] at holds
  simp only [bytes, head, List.length_append, length_optionalByte, legacy, usesModRM, usesSib,
    displacement, length_opcode_of_framed framed, framed.value, plainLength, addressLength]
  omega

end Form

/-! ### The REX prefix -/

/-- A register that the opcode implies neither needs a REX prefix nor rules it out, and nor does a
value. -/
theorem OperandType.rex_of_implied {type : OperandType} (implied : type.isHeld = false)
    {operandBits : Nat} {value : OperandValue}
    (accepted : type.accepts operandBits value = true) :
    value.asksForRex = false ∧ value.isSecondByte = false := by
  cases type with
  | accumulator width =>
      simp only [accepts, decide_eq_true_eq] at accepted
      subst accepted
      cases width <;> decide +kernel
  | count | deviceAddress =>
      simp only [accepts, decide_eq_true_eq] at accepted
      subst accepted
      decide +kernel
  | immediate width | relative width =>
      cases value with
      | register r | memory m => cases accepted
      | integer i | label name => exact ⟨rfl, rfl⟩
  | register width | registerOrMemory width | memory => cases implied
  | other number => cases accepted

namespace Form

open Draft MachineCode

variable {f : Form} {operands : List Operand} {i : Instruction}

theorem any_heldIn {property : OperandValue → Bool} {operandBits : Nat}
    (unlessHeld : ∀ (type : OperandType) (value : OperandValue), type.isHeld = false →
      type.accepts operandBits value = true → property value = false)
    {types : List OperandType}
    (accepts : List.Forall₂ (fun type operand => type.accepts operandBits operand.value = true)
      types operands) :
    (heldIn types operands).any property = operands.any fun operand => property operand.value := by
  induction accepts with
  | nil => rfl
  | @cons type operand types operands accepted _ inductionHypothesis =>
      rw [heldIn_cons, List.any_append, inductionHypothesis, List.any_cons]
      cases isHeld : type.isHeld with
      | true => simp
      | false => simp [unlessHeld type operand.value isHeld accepted]

/-- Whether the operand size alone needs a REX prefix. -/
def isWide (f : Form) : Bool := f.encoding.defaultBits < f.operandBits

theorem any_held (accepted : f.acceptsOperands operands = true) :
    f.asksForRex operands = (f.isWide || operands.any (·.value.asksForRex)) ∧
    (f.held operands).any (·.isSecondByte) = operands.any (·.value.isSecondByte) := by
  have accepts := acceptsOperands_iff.mp accepted
  constructor
  · rw [asksForRex, isWide, held]
    congr 1
    apply any_heldIn _ accepts
    intro type value isHeld fits
    exact (OperandType.rex_of_implied isHeld fits).1
  · apply any_heldIn _ accepts
    intro type value isHeld fits
    exact (OperandType.rex_of_implied isHeld fits).2

section Accepted

variable (checked : f.Checked) (arranged : f.Arranged)
  (accepted : f.acceptsOperands operands = true)

include checked arranged accepted

/-- The prefix is the last thing to be settled, from what the operands have asked for. -/
theorem exists_tallied :
    ∃ d : Draft, d.code.rex.byte &&& 0xF0 = 0 ∧ d.wantsRex = f.asksForRex operands ∧
      d.highByte.isSome = (f.held operands).any (·.isSecondByte) ∧
      f.encode operands = (finishRex d).map fun final => ⟨final.code, final.references⟩ := by
  obtain ⟨code, placed, finished, started, operandsPlaced, modRM, encoded⟩ :=
    exists_stages_of_accepted checked accepted
  obtain ⟨free, tally⟩ := tally_start started
  obtain ⟨progress, tally⟩ := tally_of_placeOperands arranged (List.Subset.refl _)
    (progress_start started).1 free tally operandsPlaced
  obtain ⟨tally, rex⟩ := tally_of_finishModRM progress tally modRM
  have unmarked : finished.code.rex.byte &&& 0xF0 = 0 := by
    rw [rex]
    exact progress.unmarked
  exact ⟨finished, unmarked, tally.wantsRex, tally.highByte, encoded⟩

theorem exists_encode_iff :
    (∃ i, f.encode operands = .ok i) ↔
      (f.asksForRex operands = true → (f.held operands).any (·.isSecondByte) = false) := by
  obtain ⟨d, unmarked, wants, second, encoded⟩ := exists_tallied checked arranged accepted
  rw [encoded, ← wants, ← second]
  rcases finishRex_outcome unmarked with
    ⟨unwanted, rex⟩ | ⟨wanted, noHighByte, rex⟩ | ⟨r, wanted, highByte, rex⟩
  · simp [rex, unwanted, Except.map]
  · simp [rex, noHighByte, Except.map]
  · simp [rex, wanted, highByte, Except.map]

theorem rex_of_encode (encoded : f.encode operands = .ok i) :
    (i.code.rex.byte != 0) = f.asksForRex operands := by
  obtain ⟨d, unmarked, wants, -, outcome⟩ := exists_tallied checked arranged accepted
  rw [encoded] at outcome
  rw [← wants]
  rcases finishRex_outcome unmarked with ⟨unwanted, rex⟩ | ⟨wanted, -, rex⟩ | ⟨r, -, -, rex⟩
  · rw [rex] at outcome
    cases outcome
    have absent := (Rex.eq_zero_iff unmarked).mpr (Bool.or_eq_false_iff.mp unwanted).1
    simp [unwanted, absent]
  · rw [rex] at outcome
    cases outcome
    have marked : d.code.rex.setOn.byte &&& 0xF0 = 0x40 := by
      rw [Rex.setOn, or_and_byte, unmarked]
      rfl
    rw [wanted, bne_iff_ne]
    intro absent
    dsimp only at absent
    rw [absent] at marked
    exact absurd marked (by decide)
  · rw [rex] at outcome
    cases outcome

end Accepted

/-! ### Comparing forms -/

/-- The one form has no more bytes than the other, and no REX prefix that the other has not. -/
structure NoLonger (f g : Form) : Prop where
  plain : f.plainLength ≤ g.plainLength
  wide : f.isWide = true → g.isWide = true

theorem noLonger_iff (f g : Form) :
    f.NoLonger g ↔ f.plainLength ≤ g.plainLength ∧ (f.isWide = true → g.isWide = true) :=
  ⟨fun ⟨plain, wide⟩ => ⟨plain, wide⟩, fun ⟨plain, wide⟩ => ⟨plain, wide⟩⟩

instance (f g : Form) : Decidable (f.NoLonger g) := decidable_of_iff' _ (f.noLonger_iff g)

/-- Whatever operands both forms accept, the one encodes if the other does, in no more bytes. -/
theorem NoLonger.encode {g : Form} (noLonger : f.NoLonger g) (checked : f.Checked)
    (arranged : f.Arranged) (accepted : f.acceptsOperands operands = true)
    (otherChecked : g.Checked) (otherArranged : g.Arranged)
    (otherAccepted : g.acceptsOperands operands = true) {j : Instruction}
    (encoded : g.encode operands = .ok j) :
    ∃ i, f.encode operands = .ok i ∧ i.code.bytes.length ≤ j.code.bytes.length := by
  obtain ⟨asks, second⟩ := any_held accepted
  obtain ⟨otherAsks, otherSecond⟩ := any_held otherAccepted
  have asksToo (asked : f.asksForRex operands = true) : g.asksForRex operands = true := by
    rw [asks, Bool.or_eq_true] at asked
    rw [otherAsks, Bool.or_eq_true]
    exact asked.imp_left noLonger.wide
  have allowed : ∃ i, f.encode operands = .ok i := by
    rw [exists_encode_iff checked arranged accepted, second, ← otherSecond]
    exact fun asked =>
      (exists_encode_iff otherChecked otherArranged otherAccepted).mp ⟨j, encoded⟩ (asksToo asked)
  obtain ⟨i, isEncoded⟩ := allowed
  refine ⟨i, isEncoded, ?_⟩
  have rex : (f.asksForRex operands).toNat ≤ (g.asksForRex operands).toNat :=
    Bool.toNat_le_toNat asksToo
  rw [length_of_encode arranged isEncoded, length_of_encode otherArranged encoded,
    rex_of_encode checked arranged accepted isEncoded,
    rex_of_encode otherChecked otherArranged otherAccepted encoded]
  have plain := noLonger.plain
  omega

end Form

end Asm64
