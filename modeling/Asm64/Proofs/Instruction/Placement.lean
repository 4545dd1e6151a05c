import Asm64.Instruction
import Asm64.Proofs.Success

/-!
# Placing operands

What the placement of one operand can do to an instruction, and what a property of drafts has to
satisfy in order to hold after all operands have been placed.
-/

namespace Asm64.Form

theorem mismatch?_eq_none_iff {f : Form} :
    f.mismatch? = none ↔
      f.modRMMismatch? = none ∧ f.modifierMismatch? = none ∧ f.valueMismatch? = none := by
  simp only [mismatch?, Option.orElse_eq_orElse, Option.orElse_eq_or, Option.or_eq_none_iff]

theorem acceptsOperands_iff {f : Form} {operands : List Operand} :
    f.acceptsOperands operands = true ↔
      List.Forall₂ (fun type operand => type.accepts f.operandBits operand.value = true)
        f.operands operands := by
  rw [acceptsOperands, Bool.and_eq_true, beq_iff_eq, List.all_eq_true, List.forall₂_iff_zip]
  exact ⟨fun ⟨count, each⟩ => ⟨count.symm, fun pair => each _ pair⟩,
    fun ⟨count, each⟩ => ⟨count.symm, fun _ pair => each pair⟩⟩

namespace Draft

def withOpcodeRegister (d : Draft) (r : Register) : Draft :=
  { d.noteRegister r with
    usedRegister := true
    code := { d.code with
      opcode := addToLast d.code.opcode r.code.low
      rex := d.code.rex.setB r.code.extension } }

def withRegField (d : Draft) (r : Register) : Draft :=
  { d.noteRegister r with
    usedRegister := true
    code := { d.code with
      modRM := d.code.modRM.setReg r.code.low
      rex := d.code.rex.setR r.code.extension } }

def withRmRegister (d : Draft) (r : Register) : Draft :=
  { d.noteRegister r with
    usedRegisterOrMemory := true
    code := { d.code with
      modRM := (d.code.modRM.setMod ModRM.modRegister).setRm r.code.low
      rex := d.code.rex.setB r.code.extension } }

def withMemory (d : Draft) (m : Memory) : Draft :=
  { d with
    code := d.code.placeMemory m
    displacementLabel := m.displacement.label?
    usedRegisterOrMemory := true }

def withLabel (d : Draft) (width : Width) (name : Text) : Draft :=
  { d with
    code := d.code.putImmediate width.bytes 0
    valueLabel := some name
    usedValue := true }

def withInteger (d : Draft) (width : Width) (i : Integer) : Draft :=
  { d with code := d.code.putImmediate width.bytes i.toUInt64, usedValue := true }

end Draft

/-- What the placement of an operand can do.  A register, a register or memory operand and a
value each have one place, which must be free. -/
inductive Placement (f : Form) : OperandType → OperandValue → Draft → Draft → Prop where
  | fixed {type : OperandType} {r : Register} {d : Draft} :
      type.fixedRegister? = some r → Placement f type (.register r) d d
  | opcodeRegister {type : OperandType} {r : Register} {d : Draft} :
      type.fixedRegister? = none → type.isRegister = true → d.usedRegister = false →
      r.isGeneral = true → r.bits = type.bits → f.encoding.registerModifier ≠ none →
      Placement f type (.register r) d (d.withOpcodeRegister r)
  | regField {type : OperandType} {r : Register} {d : Draft} :
      type.fixedRegister? = none → type.isRegister = true → d.usedRegister = false →
      r.isGeneral = true → r.bits = type.bits → f.encoding.registerModifier = none →
      Placement f type (.register r) d (d.withRegField r)
  | rmRegister {type : OperandType} {r : Register} {d : Draft} :
      type.isRegisterOrMemory = true → d.usedRegisterOrMemory = false →
      f.encoding.modRM ≠ .none → r.isGeneral = true → r.bits = type.bits →
      Placement f type (.register r) d (d.withRmRegister r)
  | memory {type : OperandType} {m : Memory} {d : Draft} :
      type.isRegisterOrMemory = true → d.usedRegisterOrMemory = false →
      f.encoding.modRM ≠ .none → m.fault? = none →
      Placement f type (.memory m) d (d.withMemory m)
  | label {type : OperandType} {width : Width} {name : Text} {d : Draft} :
      type.valueWidth? = some width → d.usedValue = false →
      f.encoding.valueBits = width.bits →
      Placement f type (.label name) d (d.withLabel width name)
  | integer {type : OperandType} {width : Width} {i : Integer} {d : Draft} :
      type.valueWidth? = some width → d.usedValue = false →
      f.encoding.valueBits = width.bits →
      Placement f type (.integer i) d (d.withInteger width i)

theorem registerCode_eq_ok_iff {r : Register} {bits : Nat} {code : Register.Code} :
    registerCode r bits = .ok code ↔ (r.isGeneral = true ∧ r.bits = bits) ∧ code = r.code := by
  unfold registerCode Register.codeAt?
  by_cases general : r.isGeneral = true ∧ r.bits = bits
  · simp [general, eq_comm]
  · simp [general]

variable {f : Form} {position : Nat} {type : OperandType} {operand : Operand} {d next : Draft}

theorem placement_of_placeRegister (implied : type.fixedRegister? = none)
    (isRegister : type.isRegister = true)
    (placed : f.placeRegister position type operand d = .ok next) :
    Placement f type operand.value d next := by
  unfold placeRegister at placed
  cases value : operand.value with
  | register r =>
      simp only [value] at placed
      cases used : d.usedRegister with
      | true => simp [used] at placed
      | false =>
          simp only [used, Bool.false_eq_true, if_false, bind_eq_ok_iff,
            registerCode_eq_ok_iff] at placed
          obtain ⟨code, ⟨⟨general, bits⟩, rfl⟩, placed⟩ := placed
          by_cases modifier : f.encoding.registerModifier = none
          · simp only [modifier, ne_eq, not_true_eq_false, if_false, pure_eq_ok_iff] at placed
            subst placed
            exact .regField implied isRegister used general bits modifier
          · simp only [modifier, ne_eq, not_false_eq_true, if_true, pure_eq_ok_iff] at placed
            subst placed
            exact .opcodeRegister implied isRegister used general bits modifier
  | memory m => simp [value] at placed
  | integer i => simp [value] at placed
  | label name => simp [value] at placed

theorem placement_of_placeRegisterOrMemory (isPlace : type.isRegisterOrMemory = true)
    (placed : f.placeRegisterOrMemory position type operand d = .ok next) :
    Placement f type operand.value d next := by
  unfold placeRegisterOrMemory at placed
  by_cases occupied : d.usedRegisterOrMemory = true ∨ f.encoding.modRM = .none
  · simp [occupied] at placed
  · rw [if_neg occupied] at placed
    simp only [not_or, Bool.not_eq_true] at occupied
    obtain ⟨free, hasModRM⟩ := occupied
    cases value : operand.value with
    | register r =>
        simp only [value, bind_eq_ok_iff, registerCode_eq_ok_iff, pure_eq_ok_iff] at placed
        obtain ⟨code, ⟨⟨general, bits⟩, rfl⟩, rfl⟩ := placed
        exact .rmRegister isPlace free hasModRM general bits
    | memory m =>
        simp only [value] at placed
        cases fault : m.fault? with
        | some fault => simp [fault] at placed
        | none =>
            simp only [fault, Except.ok.injEq] at placed
            subst placed
            exact .memory isPlace free hasModRM fault
    | integer i => simp [value] at placed
    | label name => simp [value] at placed

theorem placement_of_placeValue {width : Width} (isValue : type.valueWidth? = some width)
    (placed : f.placeValue position width operand d = .ok next) :
    Placement f type operand.value d next := by
  unfold placeValue at placed
  by_cases occupied : d.usedValue = true ∨ f.encoding.valueBits ≠ width.bits
  · simp [occupied] at placed
  · rw [if_neg occupied] at placed
    simp only [not_or, Bool.not_eq_true, ne_eq, not_not] at occupied
    obtain ⟨free, bits⟩ := occupied
    cases value : operand.value with
    | register r => simp [value] at placed
    | memory m => simp [value] at placed
    | integer i =>
        simp only [value, Except.ok.injEq] at placed
        subst placed
        exact .integer isValue free bits
    | label name =>
        simp only [value, Except.ok.injEq] at placed
        subst placed
        exact .label isValue free bits

theorem placement_of_placeOperand (placed : f.placeOperand position type operand d = .ok next) :
    Placement f type operand.value d next := by
  unfold placeOperand at placed
  cases implied : type.fixedRegister? with
  | some r =>
      simp only [implied] at placed
      by_cases same : operand.value = .register r
      · rw [if_pos same, Except.ok.injEq] at placed
        subst placed
        rw [same]
        exact .fixed implied
      · simp [same] at placed
  | none =>
      simp only [implied] at placed
      by_cases isRegister : type.isRegister = true
      · rw [if_pos isRegister] at placed
        exact placement_of_placeRegister implied isRegister placed
      · rw [if_neg isRegister] at placed
        by_cases isPlace : type.isRegisterOrMemory = true
        · rw [if_pos isPlace] at placed
          exact placement_of_placeRegisterOrMemory isPlace placed
        · rw [if_neg isPlace] at placed
          cases isValue : type.valueWidth? with
          | none => simp [isValue] at placed
          | some width =>
              simp only [isValue] at placed
              exact placement_of_placeValue isValue placed

/-- A property that no placement of one of the operands destroys holds after all operands if it
held before. -/
theorem placeOperands_preserves {property : Draft → Prop} {types : List OperandType}
    {operands : List Operand}
    (step : ∀ operand ∈ operands, ∀ {type d next}, Placement f type operand.value d next →
      property d → property next)
    (placed : f.placeOperands position types operands d = .ok next) (initial : property d) :
    property next := by
  induction types generalizing position operands d with
  | nil =>
      simp only [placeOperands, Except.ok.injEq] at placed
      exact placed ▸ initial
  | cons type types inductionHypothesis =>
      cases operands with
      | nil =>
          simp only [placeOperands, Except.ok.injEq] at placed
          exact placed ▸ initial
      | cons operand operands =>
          simp only [placeOperands, bind_eq_ok_iff] at placed
          obtain ⟨middle, first, rest⟩ := placed
          exact inductionHypothesis
            (fun other member => step other (List.mem_cons_of_mem operand member)) rest
            (step operand List.mem_cons_self (placement_of_placeOperand first) initial)

/-- The stages of a successful encoding. -/
theorem encode_stages {operands : List Operand} {i : Instruction}
    (encoded : f.encode operands = .ok i) :
    ∃ code placed finished final,
      operands.length = f.operands.length ∧
      f.start = .ok code ∧
      f.placeOperands 1 f.operands operands (.ofCode code) = .ok placed ∧
      f.finishModRM placed = .ok finished ∧
      finishRex finished = .ok final ∧
      i = ⟨final.code, final.references⟩ := by
  unfold encode at encoded
  by_cases count : operands.length = f.operands.length
  · simp only [count, ne_eq, not_true_eq_false, if_false] at encoded
    simp only [bind_eq_ok_iff, pure_eq_ok_iff] at encoded
    obtain ⟨code, started, placed, operandsPlaced, finished, modRM, final, rex, rfl⟩ := encoded
    exact ⟨code, placed, finished, final, count, started, operandsPlaced, modRM, rex, rfl⟩
  · simp [count, bind, Except.bind] at encoded

theorem encode_of_stages {operands : List Operand} {code : MachineCode}
    {placed finished final : Draft} (count : operands.length = f.operands.length)
    (started : f.start = .ok code)
    (operandsPlaced : f.placeOperands 1 f.operands operands (.ofCode code) = .ok placed)
    (modRM : f.finishModRM placed = .ok finished) (rex : finishRex finished = .ok final) :
    f.encode operands = .ok ⟨final.code, final.references⟩ := by
  simp only [encode, count, ne_eq, not_true_eq_false, if_false, started, operandsPlaced, modRM, rex,
    bind, Except.bind]
  rfl

end Asm64.Form
