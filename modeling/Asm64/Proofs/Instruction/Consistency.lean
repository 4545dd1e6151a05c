import Asm64.Proofs.Instruction.Addressing
import Asm64.Proofs.Instruction.Placement

/-!
# Encoding never contradicts itself

A form that has been checked has a place for each of its operands.  So operands that it accepts can
be placed one after another: the places that are still free are always those of the operands still
to come.  The one thing that can go wrong is a high byte register next to a REX prefix.

The fields of a memory operand and of a value are put into an instruction without asking whether
they are possible.  For operands that have been checked, asking makes no difference.
-/

namespace Asm64

namespace MachineCode

/-! ### Fields that are written without a check -/

def guardBase (c : MachineCode) : Option Register → Except EncodeError (UInt8 × MachineCode)
  | some r => do
    let code ← Form.registerCode r 64
    return (code.low, { c with rex := c.rex.setB code.extension })
  | none => return (Sib.baseNone, c)

/-- The index of a memory operand, as a 64-bit register with a possible scale. -/
def guardIndex (c : MachineCode) (base : Option Register) (low : UInt8) :
    Option ScaledIndex → Except EncodeError MachineCode
  | some index => do
    let code ← Form.registerCode index.register 64
    let c := { c with
      usesSib := true
      modRM := c.modRM.setRm ModRM.rmSib
      rex := c.rex.setX code.extension
      sib := (c.sib.setBase low).setIndex code.low }
    (c.setScaleFactor index.scale.factor).mapError .machineCode
  | none =>
    if base = none ∨ low = Sib.baseStackPointer then
      return { c with
        usesSib := true
        modRM := c.modRM.setRm ModRM.rmSib
        sib := (c.sib.setBase low).setIndex Sib.indexNone }
    else return { c with modRM := c.modRM.setRm low }

/-- A displacement of a possible size. -/
def guardDisplacement (c : MachineCode) (base : Option Register) (displacement : Displacement) :
    Except EncodeError MachineCode :=
  match base, displacement with
  | none, d =>
    ({ c with modRM := c.modRM.setMod ModRM.modPlain }.setDisplacement 4 d.constantPart).mapError
      .machineCode
  | some _, .label _ =>
    ({ c with modRM := c.modRM.setMod ModRM.modDword }.setDisplacement 4 0).mapError .machineCode
  | some r, .constant d =>
    if d = 0 ∧ r.code.low ≠ ModRM.rmRelative then
      return { c with modRM := c.modRM.setMod ModRM.modPlain }
    else if -128 ≤ d ∧ d ≤ 127 then
      ({ c with modRM := c.modRM.setMod ModRM.modByte }.setDisplacement 1 d).mapError .machineCode
    else
      ({ c with modRM := c.modRM.setMod ModRM.modDword }.setDisplacement 4 d).mapError .machineCode

/-- The fields for a memory operand, each checked before it is written. -/
def guardMemory (c : MachineCode) (m : Memory) : Except EncodeError MachineCode :=
  if m.base = some .instructionPointer then
    ({ c with modRM := (c.modRM.setMod ModRM.modPlain).setRm ModRM.rmRelative }.setDisplacement 4
      m.displacement.constantPart).mapError .machineCode
  else do
    let (low, c) ← c.guardBase m.base
    let c ← c.guardIndex m.base low m.index
    c.guardDisplacement m.base m.displacement

theorem setScaleFactor_factor (c : MachineCode) (scale : Scale) :
    c.setScaleFactor scale.factor = .ok { c with sib := c.sib.setScale scale.code } := by
  cases scale <;> rfl

theorem setImmediate_bytes (c : MachineCode) (width : Width) (value : UInt64) :
    c.setImmediate width.bytes value = .ok (c.putImmediate width.bytes value) := by
  cases width <;> rfl

theorem guardDisplacement_eq (c : MachineCode) (base : Option Register)
    (displacement : Displacement) :
    c.guardDisplacement base displacement = .ok (c.placeDisplacement base displacement) := by
  cases base with
  | none => rfl
  | some r =>
      cases displacement with
      | label name => rfl
      | constant d =>
          simp only [guardDisplacement, placeDisplacement]
          split
          · rfl
          · split <;> rfl

theorem registerCode_general (number : Fin 16) :
    Form.registerCode (.general .qword number) 64 =
      .ok (Register.general .qword number).code := rfl

/-- A memory operand that 64-bit addressing can express passes every check. -/
theorem guardMemory_eq (c : MachineCode) {m : Memory} (valid : m.fault? = none) :
    c.guardMemory m = .ok (c.placeMemory m) := by
  unfold guardMemory placeMemory
  by_cases pointer : m.base = some .instructionPointer
  · rw [if_pos pointer, if_pos pointer]
    rfl
  · rw [if_neg pointer, if_neg pointer]
    have based : c.guardBase m.base = .ok (lowOfBase m.base, c.withBase m.base) := by
      cases isBase : m.base with
      | none => rfl
      | some r =>
          rcases Memory.base_of_valid valid isBase with rfl | ⟨number, rfl⟩
          · exact absurd isBase pointer
          · rfl
    have indexed : (c.withBase m.base).guardIndex m.base (lowOfBase m.base) m.index =
        .ok (c.placeBaseAndIndex m.base m.index) := by
      cases isIndex : m.index with
      | none =>
          rw [placeBaseAndIndex_eq_none, guardIndex]
          cases m.base <;> split <;> rfl
      | some index =>
          obtain ⟨-, number, scale, -, rfl⟩ := Memory.index_of_valid valid isIndex
          rw [placeBaseAndIndex_eq_some, guardIndex, registerCode_general]
          change (setScaleFactor _ _).mapError _ = _
          rw [setScaleFactor_factor]
          cases m.base <;> rfl
    rw [based]
    simp only [bind, Except.bind, indexed, guardDisplacement_eq]

end MachineCode

theorem OperandType.isValue_of_valueWidth? {type : OperandType} {width : Width}
    (isValue : type.valueWidth? = some width) : type.isValue = true := by
  cases type with
  | immediate | relative => rfl
  | _ => cases isValue

namespace Form

/-! ### Forms that have been checked -/

/-- What parsing checks of a form: each operand has a place in the encoding, and the opcode is not
too short or too long. -/
structure Checked (f : Form) : Prop where
  matched : f.mismatch? = none
  nonempty : f.encoding.opcode ≠ []
  short : f.encoding.opcode.length ≤ 3

namespace Checked

variable {f : Form} (checked : f.Checked)

include checked

theorem counts :
    match f.encoding.modRM with
    | .none => f.registersOrMemory.length = 0
    | .register => f.registers.length = 1 ∧ f.registersOrMemory.length = 1
    | .digit _ => f.registers.length = 0 ∧ f.registersOrMemory.length = 1 := by
  obtain ⟨modRMMatched, -, -⟩ := mismatch?_eq_none_iff.mp checked.matched
  cases rule : f.encoding.modRM with
  | none | register | digit value => simpa [modRMMismatch?, rule] using modRMMatched

theorem length_registers : f.registers.length ≤ 1 := by
  obtain ⟨-, modifierMatched, -⟩ := mismatch?_eq_none_iff.mp checked.matched
  have counts := checked.counts
  cases rule : f.encoding.modRM with
  | register | digit value =>
      simp only [rule] at counts
      omega
  | none =>
      unfold modifierMismatch? at modifierMatched
      split at modifierMatched
      · split at modifierMatched
        · cases modifierMatched
        · rename_i single
          have length := congrArg List.length (not_not.mp single)
          rw [List.length_map] at length
          exact length.le
      · split at modifierMatched
        · cases modifierMatched
        · rename_i noRegisters
          have empty : f.registers.length = 0 := by
            by_contra some
            exact noRegisters ⟨rule, some⟩
          omega

theorem length_registersOrMemory : f.registersOrMemory.length ≤ 1 := by
  have counts := checked.counts
  cases rule : f.encoding.modRM with
  | none | register | digit value =>
      simp only [rule] at counts
      omega

theorem modRM_ne_none (some : f.registersOrMemory.length ≠ 0) : f.encoding.modRM ≠ .none := by
  intro rule
  have counts := checked.counts
  simp only [rule] at counts
  exact some counts

/-- A value has the width of the field for it, and there is no other. -/
theorem values_eq {type : OperandType} (inForm : type ∈ f.operands) {width : Width}
    (isValue : type.valueWidth? = some width) :
    f.values.length = 1 ∧ f.encoding.valueBits = width.bits := by
  obtain ⟨-, -, valueMatched⟩ := mismatch?_eq_none_iff.mp checked.matched
  have member : type ∈ f.values :=
    List.mem_filter.mpr ⟨inForm, OperandType.isValue_of_valueWidth? isValue⟩
  unfold valueMismatch? at valueMatched
  split at valueMatched
  · rename_i empty
    rw [empty] at member
    cases member
  · cases valueMatched
  · rename_i field only isField single
    rw [single, List.mem_singleton] at member
    subst member
    split at valueMatched
    · cases valueMatched
    · rename_i same
      rw [OperandType.valueBits, isValue] at same
      refine ⟨by rw [single]; rfl, ?_⟩
      rw [Encoding.valueBits, isField]
      exact (not_not.mp same).symm
  · cases valueMatched

end Checked

/-! ### Placing operands that a form accepts -/

section Placing

variable {f : Form} {type : OperandType} {operand : Operand} {d next : Draft} (position : Nat)

theorem placeOperand_of_isRegisterOrMemory (isPlace : type.isRegisterOrMemory = true) :
    f.placeOperand position type operand d = f.placeRegisterOrMemory position type operand d := by
  cases type with
  | registerOrMemory | memory => rfl
  | _ => cases isPlace

theorem placeOperand_of_valueWidth? {width : Width} (isValue : type.valueWidth? = some width) :
    f.placeOperand position type operand d = f.placeValue position width operand d := by
  cases type with
  | immediate | relative =>
      cases isValue
      rfl
  | _ => cases isValue

theorem placeOperand_of_placement (placement : Placement f type operand.value d next) :
    f.placeOperand position type operand d = .ok next := by
  obtain ⟨text, value⟩ := operand
  cases placement with
  | fixed implied => simp [placeOperand, implied]
  | opcodeRegister implied isRegister free general bits modifier =>
      have code := registerCode_eq_ok_iff.mpr ⟨⟨general, bits⟩, rfl⟩
      simp only [placeOperand, implied, isRegister, if_true, placeRegister, free,
        Bool.false_eq_true, if_false, code, bind_eq_ok_iff, if_pos modifier, Except.ok.injEq]
      exact ⟨_, rfl, rfl⟩
  | regField implied isRegister free general bits modifier =>
      have code := registerCode_eq_ok_iff.mpr ⟨⟨general, bits⟩, rfl⟩
      simp only [placeOperand, implied, isRegister, if_true, placeRegister, free,
        Bool.false_eq_true, if_false, code, bind_eq_ok_iff, modifier, ne_eq, not_true_eq_false,
        Except.ok.injEq]
      exact ⟨_, rfl, rfl⟩
  | rmRegister isPlace free hasModRM general bits =>
      have code := registerCode_eq_ok_iff.mpr ⟨⟨general, bits⟩, rfl⟩
      rw [placeOperand_of_isRegisterOrMemory position isPlace, placeRegisterOrMemory,
        if_neg (by simp [free, hasModRM])]
      simp only [code, bind_eq_ok_iff, Except.ok.injEq]
      exact ⟨_, rfl, rfl⟩
  | memory isPlace free hasModRM valid =>
      rw [placeOperand_of_isRegisterOrMemory position isPlace, placeRegisterOrMemory,
        if_neg (by simp [free, hasModRM])]
      simp only [valid]
      rfl
  | label isValue free bits =>
      rw [placeOperand_of_valueWidth? position isValue, placeValue,
        if_neg (by simp [free, bits])]
      rfl
  | integer isValue free bits =>
      rw [placeOperand_of_valueWidth? position isValue, placeValue,
        if_neg (by simp [free, bits])]
      rfl

/-- What is written for a memory operand or a value has passed the checks of its fields. -/
theorem guarded_of_placeOperand (placed : f.placeOperand position type operand d = .ok next) :
    (∀ m, operand.value = .memory m → d.code.guardMemory m = .ok next.code) ∧
      ∀ width, type.valueWidth? = some width →
        ∃ value, d.code.setImmediate width.bytes value = .ok next.code := by
  obtain ⟨text, value⟩ := operand
  cases placement_of_placeOperand placed with
  | fixed isKind | opcodeRegister _ isKind | regField _ isKind | rmRegister isKind =>
      refine ⟨fun m isMemory => ?_, fun width isValue => ?_⟩
      · cases isMemory
      · cases type with
        | immediate | relative => cases isKind
        | _ => cases isValue
  | memory isKind _ _ valid =>
      refine ⟨?_, fun width isValue => ?_⟩
      · rintro m ⟨⟩
        exact d.code.guardMemory_eq valid
      · cases type with
        | immediate | relative => cases isKind
        | _ => cases isValue
  | label isValue | integer isValue =>
      refine ⟨fun m isMemory => ?_, fun width isWidth => ?_⟩
      · cases isMemory
      · rw [isValue, Option.some.injEq] at isWidth
        subst isWidth
        exact ⟨_, d.code.setImmediate_bytes _ _⟩

end Placing

/-- The places that are still free are those of the operands still to come. -/
structure Draft.Awaits (f : Form) (types : List OperandType) (d : Draft) : Prop where
  registers : types.countP (·.isRegister) + d.usedRegister.toNat = f.registers.length
  registersOrMemory : types.countP (·.isRegisterOrMemory) + d.usedRegisterOrMemory.toNat =
    f.registersOrMemory.length
  values : types.countP (·.isValue) + d.usedValue.toNat = f.values.length

section Awaits

variable {f : Form} {type : OperandType} {types : List OperandType} {value : OperandValue}
  {d next : Draft}

theorem awaits_ofCode (f : Form) (code : MachineCode) :
    (Draft.ofCode code).Awaits f f.operands where
  registers := List.countP_eq_length_filter
  registersOrMemory := List.countP_eq_length_filter
  values := List.countP_eq_length_filter

theorem Placement.used (placement : Placement f type value d next) :
    next.usedRegister.toNat = d.usedRegister.toNat + type.isRegister.toNat ∧
    next.usedRegisterOrMemory.toNat =
      d.usedRegisterOrMemory.toNat + type.isRegisterOrMemory.toNat ∧
    next.usedValue.toNat = d.usedValue.toNat + type.isValue.toNat := by
  cases placement with
  | fixed implied =>
      cases type with
      | accumulator | count | deviceAddress => exact ⟨rfl, rfl, rfl⟩
      | _ => cases implied
  | opcodeRegister _ isRegister free | regField _ isRegister free =>
      cases type with
      | register => exact ⟨by rw [free]; rfl, rfl, rfl⟩
      | _ => cases isRegister
  | rmRegister isPlace free | memory isPlace free =>
      cases type with
      | registerOrMemory | memory => exact ⟨rfl, by rw [free]; rfl, rfl⟩
      | _ => cases isPlace
  | label isValue free | integer isValue free =>
      cases type with
      | immediate | relative => exact ⟨rfl, rfl, by rw [free]; rfl⟩
      | _ => cases isValue

theorem Placement.awaits (placement : Placement f type value d next)
    (awaits : d.Awaits f (type :: types)) : next.Awaits f types := by
  have counted (isKind : OperandType → Bool) :
      (type :: types).countP isKind = types.countP isKind + (isKind type).toNat := by
    cases kind : isKind type <;> simp [kind]
  obtain ⟨usedRegister, usedRegisterOrMemory, usedValue⟩ := placement.used
  obtain ⟨registers, registersOrMemory, values⟩ := awaits
  rw [counted] at registers registersOrMemory values
  exact ⟨by omega, by omega, by omega⟩

/-- A place for an operand still to come is free, if there is only one of its kind. -/
theorem eq_false_of_awaited {isKind : OperandType → Bool} {used : Bool} {total : Nat}
    (awaited : (type :: types).countP isKind + used.toNat = total) (single : total ≤ 1)
    (kind : isKind type = true) : used = false ∧ total ≠ 0 := by
  rw [List.countP_cons_of_pos kind] at awaited
  cases used with
  | false => exact ⟨rfl, by omega⟩
  | true =>
      rw [Bool.toNat_true] at awaited
      omega

theorem exists_placement_of_value (checked : f.Checked) (inForm : type ∈ f.operands)
    {width : Width} (isValue : type.valueWidth? = some width)
    (isPlaceable : (∃ name, value = .label name) ∨ ∃ i, value = .integer i)
    (awaits : d.Awaits f (type :: types)) : ∃ next, Placement f type value d next := by
  obtain ⟨single, bits⟩ := checked.values_eq inForm isValue
  have free := (eq_false_of_awaited awaits.values single.le
    (OperandType.isValue_of_valueWidth? isValue)).1
  rcases isPlaceable with ⟨name, rfl⟩ | ⟨i, rfl⟩
  · exact ⟨_, .label isValue free bits⟩
  · exact ⟨_, .integer isValue free bits⟩

/-- An operand that the form accepts can be placed where its type says. -/
theorem exists_placement (checked : f.Checked) (inForm : type ∈ f.operands) {operandBits : Nat}
    (accepted : type.accepts operandBits value = true) (awaits : d.Awaits f (type :: types)) :
    ∃ next, Placement f type value d next := by
  have general {width : Width} {r : Register} (fits : (r.isGeneral && r.width = width) = true) :
      r.isGeneral = true ∧ r.bits = width.bits := by
    simp only [Bool.and_eq_true, decide_eq_true_eq] at fits
    exact ⟨fits.1, by rw [Register.bits, fits.2]⟩
  have valid {m : Memory} (isValid : m.isValid = true) : m.fault? = none :=
    Option.isNone_iff_eq_none.mp isValid
  cases type with
  | accumulator width | count | deviceAddress =>
      simp only [OperandType.accepts, decide_eq_true_eq] at accepted
      subst accepted
      exact ⟨d, .fixed rfl⟩
  | register width =>
      have free := (eq_false_of_awaited awaits.registers checked.length_registers rfl).1
      cases value with
      | register r =>
          obtain ⟨isGeneral, bits⟩ := general accepted
          by_cases modifier : f.encoding.registerModifier = none
          · exact ⟨_, .regField rfl rfl free isGeneral bits modifier⟩
          · exact ⟨_, .opcodeRegister rfl rfl free isGeneral bits modifier⟩
      | _ => cases accepted
  | registerOrMemory width =>
      obtain ⟨free, some⟩ := eq_false_of_awaited awaits.registersOrMemory
        checked.length_registersOrMemory rfl
      have hasModRM := checked.modRM_ne_none some
      cases value with
      | register r =>
          obtain ⟨isGeneral, bits⟩ := general accepted
          exact ⟨_, .rmRegister rfl free hasModRM isGeneral bits⟩
      | memory m =>
          exact ⟨_, .memory rfl free hasModRM (valid (Bool.and_eq_true_iff.mp accepted).2)⟩
      | _ => cases accepted
  | memory =>
      obtain ⟨free, some⟩ := eq_false_of_awaited awaits.registersOrMemory
        checked.length_registersOrMemory rfl
      cases value with
      | memory m => exact ⟨_, .memory rfl free (checked.modRM_ne_none some) (valid accepted)⟩
      | _ => cases accepted
  | immediate | relative =>
      apply exists_placement_of_value checked inForm rfl _ awaits
      cases value with
      | label name => exact Or.inl ⟨name, rfl⟩
      | integer i => exact Or.inr ⟨i, rfl⟩
      | _ => cases accepted
  | other number => cases accepted

theorem exists_placeOperands (checked : f.Checked) {operandBits : Nat} {operands : List Operand}
    (inForm : ∀ type ∈ types, type ∈ f.operands)
    (accepted : List.Forall₂ (fun type operand => type.accepts operandBits operand.value = true)
      types operands)
    (awaits : d.Awaits f types) (position : Nat) :
    ∃ placed, f.placeOperands position types operands d = .ok placed ∧ placed.Awaits f [] := by
  induction accepted generalizing d position with
  | nil => exact ⟨d, rfl, awaits⟩
  | @cons type operand types operands here _ inductionHypothesis =>
      rw [List.forall_mem_cons] at inForm
      obtain ⟨next, placement⟩ := exists_placement checked inForm.1 here awaits
      obtain ⟨placed, rest, done⟩ :=
        inductionHypothesis inForm.2 (placement.awaits awaits) (position + 1)
      refine ⟨placed, ?_, done⟩
      rw [placeOperands, placeOperand_of_placement position placement]
      exact rest

end Awaits

/-! ### Whole instructions -/

theorem exists_start {f : Form} (checked : f.Checked) : ∃ code, f.start = .ok code := by
  have nonempty := List.length_pos_iff.mpr checked.nonempty
  have short := checked.short
  rw [start, MachineCode.setOpcode, if_neg (by omega)]
  exact ⟨_, rfl⟩

theorem exists_finishModRM {f : Form} (checked : f.Checked) {d : Draft}
    (awaits : d.Awaits f []) : ∃ finished, f.finishModRM d = .ok finished := by
  obtain ⟨registers, registersOrMemory, -⟩ := awaits
  rw [List.countP_nil, Nat.zero_add] at registers registersOrMemory
  have isUsed {used : Bool} {total : Nat} (counted : used.toNat = total) (one : total = 1) :
      used = true := by
    cases used with
    | true => rfl
    | false => cases counted.trans one
  have counts := checked.counts
  unfold finishModRM
  cases rule : f.encoding.modRM with
  | none => exact ⟨d, rfl⟩
  | register =>
      simp only [rule] at counts
      exact ⟨_, if_pos ⟨isUsed registers counts.1, isUsed registersOrMemory counts.2⟩⟩
  | digit value =>
      simp only [rule] at counts
      exact ⟨_, if_pos (isUsed registersOrMemory counts.2)⟩

theorem finishRex_cases (d : Draft) :
    (∃ finished, finishRex d = .ok finished) ∨
      ∃ r, finishRex d = .error (.highByteWithRex r) := by
  unfold finishRex
  split
  · split
    · exact Or.inr ⟨_, rfl⟩
    · exact Or.inl ⟨_, rfl⟩
  · exact Or.inl ⟨_, rfl⟩

/-- Operands that a checked form accepts come as far as the REX prefix. -/
theorem exists_stages_of_accepted {f : Form} (checked : f.Checked) {operands : List Operand}
    (accepted : f.acceptsOperands operands = true) :
    ∃ code placed finished, f.start = .ok code ∧
      f.placeOperands 1 f.operands operands (.ofCode code) = .ok placed ∧
      f.finishModRM placed = .ok finished ∧
      f.encode operands = (finishRex finished).map fun d => ⟨d.code, d.references⟩ := by
  have accepts := acceptsOperands_iff.mp accepted
  have count : operands.length = f.operands.length := accepts.length_eq.symm
  obtain ⟨code, started⟩ := exists_start checked
  obtain ⟨placed, operandsPlaced, awaits⟩ :=
    exists_placeOperands checked (fun _ member => member) accepts (awaits_ofCode f code) 1
  obtain ⟨finished, modRM⟩ := exists_finishModRM checked awaits
  refine ⟨code, placed, finished, started, operandsPlaced, modRM, ?_⟩
  simp only [encode, count, ne_eq, not_true_eq_false, if_false, started, bind, Except.bind,
    operandsPlaced, modRM]
  cases finishRex finished <;> rfl

/-- Operands that a checked form accepts are encoded, unless a high byte register would need a REX
prefix next to it. -/
theorem encode_of_accepted {f : Form} (checked : f.Checked) {operands : List Operand}
    (accepted : f.acceptsOperands operands = true) :
    (∃ i, f.encode operands = .ok i) ∨
      ∃ r, f.encode operands = .error (.highByteWithRex r) := by
  obtain ⟨code, placed, finished, -, -, -, encoded⟩ := exists_stages_of_accepted checked accepted
  rw [encoded]
  rcases finishRex_cases finished with ⟨final, rex⟩ | ⟨r, rex⟩
  · exact Or.inl ⟨⟨final.code, final.references⟩, by rw [rex]; rfl⟩
  · exact Or.inr ⟨r, by rw [rex]; rfl⟩

end Form

end Asm64
