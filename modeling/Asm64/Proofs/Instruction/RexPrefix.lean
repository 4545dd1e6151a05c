import Asm64.Proofs.Instruction.Decoding
import Asm64.Proofs.Instruction.ParsedForm

/-!
# When an instruction has a REX prefix

The need for a REX prefix comes from the operand size, from the registers that the instruction
holds, and from the base and the index of its memory operand.  The bits that say so are set while
operands are placed, each by the one operand that it belongs to, so that in the end the prefix is
there exactly if one of them needs it.  A high byte register next to it is the only thing that can
go wrong.
-/

namespace Asm64

/-! ### Registers and operands that need the prefix -/

namespace Register

def isNamed (names : List String) (r : Register) : Bool := names.any fun name => r.name = ascii name

/-- Whether it is the second byte of a register, which shares its number with a low byte. -/
def isSecondByte : Register → Bool := isNamed ["ah", "ch", "dh", "bh"]

/-- Whether it is a register of the family of r8 to r15. -/
def isExtended : Register → Bool
  | general _ number => 8 ≤ number.val
  | _ => false

/-- Whether it can only be named next to a REX prefix. -/
def asksForRex (r : Register) : Bool := isNamed ["spl", "bpl", "sil", "dil"] r || r.isExtended

theorem isSecondByte_eq (r : Register) : r.isSecondByte = r.isHighByte := by
  cases r with
  | general width number => cases width <;> revert number <;> decide +kernel
  | highByte of => revert of; decide +kernel
  | instructionPointer => decide +kernel

theorem asksForRex_eq (r : Register) : r.asksForRex = r.needsRex := by
  cases r with
  | general width number => cases width <;> revert number <;> decide +kernel
  | highByte of => revert of; decide +kernel
  | instructionPointer => decide +kernel

theorem extension_code (r : Register) : r.code.extension = r.isExtended := by
  cases r with
  | general width number => rfl
  | highByte of => revert of; decide
  | instructionPointer => rfl

theorem asksForRex_of_extension {r : Register} (extended : r.code.extension = true) :
    r.asksForRex = true := by
  rw [asksForRex, ← extension_code, extended, Bool.or_true]

end Register

def Memory.asksForRex (m : Memory) : Bool :=
  m.base.any (·.isExtended) || m.index.any (·.register.isExtended)

def OperandValue.asksForRex : OperandValue → Bool
  | register r => r.asksForRex
  | memory m => m.asksForRex
  | _ => false

def OperandValue.isSecondByte : OperandValue → Bool
  | register r => r.isSecondByte
  | _ => false

def OperandType.isHeld (type : OperandType) : Bool := type.isRegister || type.isRegisterOrMemory

namespace Form

/-- The operands that stand in positions of registers, and of registers or memory. -/
def heldIn (types : List OperandType) (operands : List Operand) : List OperandValue :=
  ((types.zip operands).filter fun pair => pair.1.isHeld).map (·.2.value)

def held (f : Form) (operands : List Operand) : List OperandValue := heldIn f.operands operands

/-- Whether the operand size or one of the operands needs a REX prefix. -/
def asksForRex (f : Form) (operands : List Operand) : Bool :=
  f.encoding.defaultBits < f.operandBits || (f.held operands).any (·.asksForRex)

theorem heldIn_cons (type : OperandType) (types : List OperandType) (operand : Operand)
    (operands : List Operand) :
    heldIn (type :: types) (operand :: operands) =
      (if type.isHeld then [operand.value] else []) ++ heldIn types operands := by
  unfold heldIn
  rw [List.zip_cons_cons, List.filter_cons]
  split <;> rfl

end Form

/-! ### The bits of the prefix -/

theorem Rex.eq_zero_iff {r : Rex} (unmarked : r.byte &&& 0xF0 = 0) :
    r.byte = 0 ↔ (r.w || r.r || r.x || r.b) = false := by
  obtain ⟨byte⟩ := r
  have all : ∀ n : Fin 256, UInt8.ofNat n &&& 0xF0 = 0 →
      (UInt8.ofNat n = 0 ↔ ((Rex.w ⟨UInt8.ofNat n⟩ || Rex.r ⟨UInt8.ofNat n⟩ ||
        Rex.x ⟨UInt8.ofNat n⟩ || Rex.b ⟨UInt8.ofNat n⟩) = false)) := by
    decide +kernel
  have at_byte := all ⟨byte.toNat, byte.toNat_lt⟩
  rw [UInt8.ofNat_toNat] at at_byte
  exact at_byte unmarked

namespace MachineCode

theorem rex_placeDisplacement (c : MachineCode) (base : Option Register)
    (displacement : Displacement) : (c.placeDisplacement base displacement).rex = c.rex := by
  cases base with
  | none => rfl
  | some r =>
      cases displacement with
      | label name => rfl
      | constant d =>
          unfold placeDisplacement
          dsimp only
          split
          · rfl
          · split <;> rfl

theorem bits_placeMemory {c : MachineCode} {m : Memory} (valid : m.fault? = none)
    (b : c.rex.b = false) (x : c.rex.x = false) :
    (c.placeMemory m).rex.b = m.base.any (·.isExtended) ∧
      (c.placeMemory m).rex.x = m.index.any (·.register.isExtended) := by
  have based : (c.withBase m.base).rex.b = m.base.any (·.isExtended) ∧
      (c.withBase m.base).rex.x = false := by
    cases m.base with
    | none => exact ⟨b, x⟩
    | some r =>
        obtain ⟨-, -, keptX, setB⟩ := c.rex.bits_setB r.code.extension
        exact ⟨setB.trans r.extension_code, keptX.trans x⟩
  unfold placeMemory
  split
  · rename_i pointer
    cases isIndex : m.index with
    | none =>
        rw [pointer]
        exact ⟨b, x⟩
    | some index => exact absurd pointer (Memory.index_of_valid valid isIndex).1
  · rw [rex_placeDisplacement]
    cases m.index with
    | none =>
        rw [placeBaseAndIndex_eq_none]
        split
        · exact based
        · exact based
    | some index =>
        rw [placeBaseAndIndex_eq_some]
        obtain ⟨-, -, setX, keptB⟩ :=
          (c.withBase m.base).rex.bits_setX index.register.code.extension
        exact ⟨keptB.trans based.1, setX.trans index.register.extension_code⟩

end MachineCode

namespace Form

open Draft MachineCode

variable {f : Form} {d next : Draft}

/-- Whether a draft has noted that there has to be a REX prefix. -/
def Draft.wantsRex (d : Draft) : Bool :=
  d.code.rex.w || d.code.rex.r || d.code.rex.x || d.code.rex.b || d.needsRex

/-- A bit is only set by the operand that it belongs to. -/
structure Draft.FreeBits (f : Form) (d : Draft) : Prop where
  r : d.usedRegister = false → d.code.rex.r = false
  x : d.usedRegisterOrMemory = false → d.code.rex.x = false
  b : d.usedRegisterOrMemory = false →
    f.encoding.registerModifier = none ∨ d.usedRegister = false → d.code.rex.b = false

/-- What a draft has noted after it has held some operands. -/
structure Draft.Tally (f : Form) (d : Draft) (held : List OperandValue) : Prop where
  wantsRex : d.wantsRex =
    (decide (f.encoding.defaultBits < f.operandBits) || held.any (·.asksForRex))
  highByte : d.highByte.isSome = held.any (·.isSecondByte)
  ofHeld : ∀ r, d.highByte = some r → r.isSecondByte = true ∧ .register r ∈ held

namespace Draft.Tally

variable {held : List OperandValue} (tally : d.Tally f held)

include tally

theorem register {r : Register} (wantsRex : next.wantsRex = (d.wantsRex || r.asksForRex))
    (highByte : next.highByte = (d.noteRegister r).highByte) :
    next.Tally f (held ++ [.register r]) where
  wantsRex := by
    rw [wantsRex, tally.wantsRex, List.any_append, Bool.or_assoc]
    simp [OperandValue.asksForRex]
  highByte := by
    rw [highByte, noteRegister, ← r.isSecondByte_eq, List.any_append, ← tally.highByte]
    cases second : r.isSecondByte <;> simp [OperandValue.isSecondByte, second]
  ofHeld := by
    intro other noted
    rw [highByte, noteRegister, ← r.isSecondByte_eq] at noted
    dsimp only at noted
    split at noted
    · rename_i second
      cases noted
      exact ⟨second, by simp⟩
    · obtain ⟨second, member⟩ := tally.ofHeld other noted
      exact ⟨second, List.mem_append_left _ member⟩

theorem memory {m : Memory} (wantsRex : next.wantsRex = (d.wantsRex || m.asksForRex))
    (highByte : next.highByte = d.highByte) : next.Tally f (held ++ [.memory m]) where
  wantsRex := by
    rw [wantsRex, tally.wantsRex, List.any_append, Bool.or_assoc]
    simp [OperandValue.asksForRex]
  highByte := by
    rw [highByte, tally.highByte, List.any_append]
    simp [OperandValue.isSecondByte]
  ofHeld := by
    intro r noted
    rw [highByte] at noted
    obtain ⟨second, member⟩ := tally.ofHeld r noted
    exact ⟨second, List.mem_append_left _ member⟩

theorem same (wantsRex : next.wantsRex = d.wantsRex) (highByte : next.highByte = d.highByte) :
    next.Tally f held where
  wantsRex := wantsRex.trans tally.wantsRex
  highByte := by
    rw [highByte]
    exact tally.highByte
  ofHeld := by
    rw [highByte]
    exact tally.ofHeld

end Draft.Tally

/-! ### Placing operands -/

section Steps

variable {type : OperandType} {value : OperandValue} (arranged : f.Arranged)
  (progress : d.Progress f) (free : d.FreeBits f)

theorem isHeld_of_fixedRegister? {r : Register} (implied : type.fixedRegister? = some r) :
    type.isHeld = false := by
  cases type with
  | accumulator | count | deviceAddress => rfl
  | _ => cases implied

theorem isHeld_of_valueWidth? {width : Width} (isValue : type.valueWidth? = some width) :
    type.isHeld = false := by
  cases type with
  | immediate | relative => rfl
  | _ => cases isValue

theorem isHeld_of_isRegister (isRegister : type.isRegister = true) : type.isHeld = true := by
  rw [OperandType.isHeld, isRegister, Bool.true_or]

theorem isHeld_of_isRegisterOrMemory (isPlace : type.isRegisterOrMemory = true) :
    type.isHeld = true := by
  rw [OperandType.isHeld, isPlace, Bool.or_true]

include progress

theorem freeBits_of_placement (free : d.FreeBits f) (placement : Placement f type value d next) :
    next.FreeBits f := by
  cases placement with
  | fixed => exact free
  | @opcodeRegister r _ implied isRegister unused general bits modifier =>
      obtain ⟨-, -, x, -⟩ := d.code.rex.bits_setB r.code.extension
      exact ⟨Bool.noConfusion, fun unplaced => x.trans (free.x unplaced),
        fun _ unchanged => unchanged.elim (absurd · modifier) Bool.noConfusion⟩
  | @regField r _ implied isRegister unused general bits modifier =>
      obtain ⟨-, -, x, b⟩ := d.code.rex.bits_setR r.code.extension
      exact ⟨Bool.noConfusion, fun unplaced => x.trans (free.x unplaced),
        fun unplaced _ => b.trans (free.b unplaced (Or.inl modifier))⟩
  | @rmRegister r _ isPlace unused hasModRM general bits =>
      obtain ⟨-, keptR, -, -⟩ := d.code.rex.bits_setB r.code.extension
      exact ⟨fun unused => keptR.trans (free.r unused), Bool.noConfusion, Bool.noConfusion⟩
  | memory isPlace unused hasModRM valid =>
      obtain ⟨-, same⟩ := addresses_placeMemory (progress.blank unused) valid
      exact ⟨fun unused => same.r.trans (free.r unused), Bool.noConfusion, Bool.noConfusion⟩
  | label | integer => exact ⟨free.r, free.x, free.b⟩

include arranged free

theorem tally_of_placement {held : List OperandValue} (tally : d.Tally f held)
    (placement : Placement f type value d next) :
    next.Tally f (held ++ if type.isHeld then [value] else []) := by
  -- The extension of a register is one of the reasons why it asks for the prefix.
  have noted {r : Register} {bits : Bool} :
      (bits || r.code.extension || (d.needsRex || r.needsRex)) =
        (bits || d.needsRex || r.asksForRex) := by
    rw [← r.asksForRex_eq]
    cases extended : r.code.extension with
    | true => simp [Register.asksForRex_of_extension extended]
    | false => simp [Bool.or_assoc]
  cases placement with
  | fixed implied =>
      rw [isHeld_of_fixedRegister? implied, if_neg Bool.false_ne_true, List.append_nil]
      exact tally
  | @opcodeRegister r _ implied isRegister unused general bits modifier =>
      rw [isHeld_of_isRegister isRegister, if_pos rfl]
      have unplaced : d.usedRegisterOrMemory = false := by
        by_contra used
        have hasModRM := (progress.framed (Bool.eq_true_of_not_eq_false used)).1
        exact arranged.onePlace.elim modifier hasModRM
      obtain ⟨w, keptR, x, b⟩ := d.code.rex.bits_setB r.code.extension
      refine tally.register ?_ rfl
      rw [wantsRex, wantsRex, free.b unplaced (Or.inr unused), Bool.or_false]
      simp only [withOpcodeRegister, noteRegister, w, keptR, x, b]
      exact noted
  | @regField r _ implied isRegister unused general bits modifier =>
      rw [isHeld_of_isRegister isRegister, if_pos rfl]
      obtain ⟨w, setR, x, b⟩ := d.code.rex.bits_setR r.code.extension
      refine tally.register ?_ rfl
      rw [wantsRex, wantsRex, free.r unused, Bool.or_false]
      simp only [withRegField, noteRegister, w, setR, x, b]
      rw [← noted]
      simp only [Bool.or_assoc, Bool.or_comm, Bool.or_left_comm]
  | @rmRegister r _ isPlace unused hasModRM general bits =>
      rw [isHeld_of_isRegisterOrMemory isPlace, if_pos rfl]
      have modifier : f.encoding.registerModifier = none :=
        arranged.onePlace.elim id fun none => absurd none hasModRM
      obtain ⟨w, keptR, x, b⟩ := d.code.rex.bits_setB r.code.extension
      refine tally.register ?_ rfl
      rw [wantsRex, wantsRex, free.b unused (Or.inl modifier), Bool.or_false]
      simp only [withRmRegister, noteRegister, w, keptR, x, b]
      exact noted
  | @memory m _ isPlace unused hasModRM valid =>
      rw [isHeld_of_isRegisterOrMemory isPlace, if_pos rfl]
      have modifier : f.encoding.registerModifier = none :=
        arranged.onePlace.elim id fun none => absurd none hasModRM
      have freeB := free.b unused (Or.inl modifier)
      have freeX := free.x unused
      obtain ⟨-, same⟩ := addresses_placeMemory (progress.blank unused) valid
      obtain ⟨b, x⟩ := bits_placeMemory valid freeB freeX
      refine tally.memory ?_ rfl
      rw [wantsRex, wantsRex, freeB, freeX, Memory.asksForRex]
      simp only [withMemory, same.w, same.r, b, x, Bool.false_or, Bool.or_assoc, Bool.or_comm,
        Bool.or_left_comm]
  | label isValue | integer isValue =>
      rw [isHeld_of_valueWidth? isValue, if_neg Bool.false_ne_true, List.append_nil]
      exact tally.same rfl rfl

end Steps

/-- In the end the draft has noted what all operands that it holds ask for. -/
theorem tally_of_placeOperands (arranged : f.Arranged) {position : Nat}
    {types : List OperandType} {operands : List Operand} (inForm : types ⊆ f.operands)
    (progress : d.Progress f) (free : d.FreeBits f) {held : List OperandValue}
    (tally : d.Tally f held) (placed : f.placeOperands position types operands d = .ok next) :
    next.Progress f ∧ next.Tally f (held ++ heldIn types operands) := by
  induction types generalizing position operands d held with
  | nil =>
      simp only [placeOperands, Except.ok.injEq] at placed
      subst placed
      rw [heldIn, List.zip_nil_left, List.filter_nil, List.map_nil, List.append_nil]
      exact ⟨progress, tally⟩
  | cons type types inductionHypothesis =>
      cases operands with
      | nil =>
          simp only [placeOperands, Except.ok.injEq] at placed
          subst placed
          rw [heldIn, List.zip_nil_right, List.filter_nil, List.map_nil, List.append_nil]
          exact ⟨progress, tally⟩
      | cons operand operands =>
          simp only [placeOperands, bind_eq_ok_iff] at placed
          obtain ⟨middle, first, rest⟩ := placed
          obtain ⟨here, later⟩ := List.cons_subset.mp inForm
          have placement := placement_of_placeOperand first
          have middleProgress := (progress_and_extends_of_placement progress arranged here
            placement).1
          rw [heldIn_cons, ← List.append_assoc]
          exact inductionHypothesis later middleProgress
            (freeBits_of_placement progress free placement)
            (tally_of_placement arranged progress free tally placement) rest

/-! ### Whole instructions -/

theorem tally_start {code : MachineCode} (started : f.start = .ok code) :
    (ofCode code).FreeBits f ∧ (ofCode code).Tally f [] := by
  have rex : code.rex = Rex.setW ⟨0⟩ (f.encoding.defaultBits < f.operandBits) := by
    simp only [start, mapError_eq_ok_iff, setOpcode] at started
    split at started
    · cases started
    · cases started
      rfl
  obtain ⟨w, r, x, b⟩ := Rex.bits_setW ⟨0⟩ (f.encoding.defaultBits < f.operandBits)
  rw [← rex] at w r x b
  refine ⟨⟨fun _ => r, fun _ => x, fun _ _ => b⟩, ⟨?_, rfl, by simp [ofCode]⟩⟩
  rw [wantsRex, ofCode, w, r, x, b, List.any_nil]
  simp only [Bool.or_assoc]
  rfl

theorem wantsRex_iff (unmarked : d.code.rex.byte &&& 0xF0 = 0) :
    d.wantsRex = true ↔ d.code.rex.byte ≠ 0 ∨ d.needsRex = true := by
  rw [wantsRex, Bool.or_eq_true, ne_eq, Rex.eq_zero_iff unmarked, Bool.not_eq_false]

/-- The prefix is left out, switched on, or excluded by a register. -/
theorem finishRex_outcome (unmarked : d.code.rex.byte &&& 0xF0 = 0) :
    (d.wantsRex = false ∧ finishRex d = .ok d) ∨
      (d.wantsRex = true ∧ d.highByte = none ∧
        finishRex d = .ok { d with code := { d.code with rex := d.code.rex.setOn } }) ∨
      ∃ r, d.wantsRex = true ∧ d.highByte = some r ∧
        finishRex d = .error (.highByteWithRex r) := by
  unfold finishRex
  cases wanted : d.wantsRex with
  | false =>
      left
      refine ⟨rfl, if_neg ?_⟩
      rw [← wantsRex_iff unmarked, wanted]
      exact Bool.false_ne_true
  | true =>
      right
      rw [if_pos ((wantsRex_iff unmarked).mp wanted)]
      cases noted : d.highByte with
      | none => exact Or.inl ⟨rfl, rfl, rfl⟩
      | some r => exact Or.inr ⟨r, rfl, rfl, rfl⟩

theorem tally_of_finishModRM {held : List OperandValue} (progress : d.Progress f)
    (tally : d.Tally f held) (finished : f.finishModRM d = .ok next) :
    next.Tally f held ∧ next.code.rex = d.code.rex := by
  obtain ⟨modRM, rfl, -⟩ := finishModRM_spec finished progress.usesModRM
  exact ⟨tally.same rfl rfl, rfl⟩

theorem fault?_of_accepts {type : OperandType} {operandBits : Nat} {m : Memory}
    (accepted : type.accepts operandBits (.memory m) = true) : m.fault? = none := by
  have valid {m : Memory} (isValid : m.isValid = true) : m.fault? = none :=
    Option.isNone_iff_eq_none.mp isValid
  cases type with
  | registerOrMemory width => exact valid (Bool.and_eq_true_iff.mp accepted).2
  | memory => exact valid accepted
  | accumulator width | count | deviceAddress =>
      simp only [OperandType.accepts, decide_eq_true_eq] at accepted
      cases accepted
  | _ => cases accepted

theorem guardMemory_of_accepted {operands : List Operand}
    (accepted : f.acceptsOperands operands = true) :
    ∀ operand ∈ operands, ∀ m, operand.value = .memory m → ∀ c : MachineCode,
      c.guardMemory m = .ok (c.placeMemory m) := by
  intro operand member m isMemory c
  obtain ⟨type, accepts⟩ := exists_of_forall₂ (acceptsOperands_iff.mp accepted).flip member
  rw [isMemory] at accepts
  exact c.guardMemory_eq (fault?_of_accepts accepts)

/-- Operands that a form accepts are encoded, unless the instruction holds a high byte register and
needs a REX prefix; the failure names such a register.  An encoded instruction has a prefix exactly
if it needs one.  Nothing else can fail: the fields of memory operands and of values pass the checks
that are not made. -/
theorem high_byte_excludes_rex {t : Text} (parsed : Form.parse t = .ok f)
    {operands : List Operand} (accepted : f.acceptsOperands operands = true) :
    ((∃ e, f.encode operands = .error e) ↔
      (f.held operands).any (·.isSecondByte) = true ∧ f.asksForRex operands = true) ∧
    (∀ e, f.encode operands = .error e → e.isInconsistency = false ∧
      ∃ r, e = .highByteWithRex r ∧ r.isSecondByte = true ∧ .register r ∈ f.held operands) ∧
    (∀ i, f.encode operands = .ok i →
      if f.asksForRex operands = true then i.code.rex.byte &&& 0xF0 = 0x40
      else i.code.rex.byte = 0) ∧
    (∀ operand ∈ operands, ∀ m, operand.value = .memory m → ∀ c : MachineCode,
      c.guardMemory m = .ok (c.placeMemory m)) ∧
    ∀ type ∈ f.operands, ∀ width, type.valueWidth? = some width → ∀ (c : MachineCode) value,
      c.setImmediate width.bytes value = .ok (c.putImmediate width.bytes value) := by
  have arranged := arranged_of_parse parsed
  obtain ⟨code, placed, finished, started, operandsPlaced, modRMFinished, encoded⟩ :=
    exists_stages_of_accepted (checked_of_parse parsed) accepted
  obtain ⟨free, tally⟩ := tally_start started
  obtain ⟨progress, tally⟩ := tally_of_placeOperands arranged (List.Subset.refl _)
    (progress_start started).1 free tally operandsPlaced
  obtain ⟨tally, rex⟩ := tally_of_finishModRM progress tally modRMFinished
  have unmarked : finished.code.rex.byte &&& 0xF0 = 0 := by
    rw [rex]
    exact progress.unmarked
  have wants : finished.wantsRex = f.asksForRex operands := tally.wantsRex
  have second : finished.highByte.isSome = (f.held operands).any (·.isSecondByte) := tally.highByte
  have written : ∀ type ∈ f.operands, ∀ width, type.valueWidth? = some width →
      ∀ (c : MachineCode) value,
        c.setImmediate width.bytes value = .ok (c.putImmediate width.bytes value) :=
    fun _ _ width _ c value => c.setImmediate_bytes width value
  have guarded := guardMemory_of_accepted accepted
  rw [encoded, ← wants, ← second]
  rcases finishRex_outcome unmarked with
    ⟨unwanted, rex⟩ | ⟨wanted, noHighByte, rex⟩ | ⟨r, wanted, highByte, rex⟩
  · rw [rex, unwanted]
    refine ⟨by simp [Except.map], by simp [Except.map], ?_, guarded, written⟩
    rintro i ⟨⟩
    rw [if_neg Bool.false_ne_true, Rex.eq_zero_iff unmarked]
    exact (Bool.or_eq_false_iff.mp unwanted).1
  · rw [rex, wanted, noHighByte]
    refine ⟨by simp [Except.map], by simp [Except.map], ?_, guarded, written⟩
    rintro i ⟨⟩
    rw [if_pos rfl]
    dsimp only
    rw [Rex.setOn, or_and_byte, unmarked]
    rfl
  · rw [rex, wanted, highByte]
    refine ⟨by simp [Except.map], ?_, by simp [Except.map], guarded, written⟩
    rintro e ⟨⟩
    exact ⟨rfl, r, rfl, tally.ofHeld r highByte⟩

def sampleMove : Form :=
  Catalog.form "MOV" [Catalog.rm .byte, .register .byte] [0x88] Catalog.slashR

/-- A high byte register next to a register that needs the prefix, and next to memory that does
not. -/
theorem high_byte_excludes_rex_sample :
    Form.parse (ascii "MOV reg/mem8 reg8, 88 /r") = .ok sampleMove ∧
      (∃ e, sampleMove.encode [⟨ascii "sil", .register (.general .byte 6)⟩,
        ⟨ascii "bh", .register (.highByte 3)⟩] = .error e) ∧
      ¬ ∃ e, sampleMove.encode [⟨ascii "[rsi]", .memory ⟨some (.general .qword 6), none,
        .constant 0, none⟩⟩, ⟨ascii "bh", .register (.highByte 3)⟩] = .error e := by
  have parsed : Form.parse (ascii "MOV reg/mem8 reg8, 88 /r") = .ok sampleMove :=
    toOption_eq_some_iff.mp (by decide +kernel)
  refine ⟨parsed, ?_, ?_⟩
  · exact (high_byte_excludes_rex parsed (by decide +kernel)).1.mpr (by decide +kernel)
  · exact mt (high_byte_excludes_rex parsed (by decide +kernel)).1.mp (by decide +kernel)

end Form

end Asm64
