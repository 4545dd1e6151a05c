import Asm64.Proofs.Instruction.Framing
import Asm64.Proofs.Instruction.Placement

/-!
# Operands stay where they were placed

A register, a register or memory operand and a value are held in fields that no other operand
uses.  So every operand can still be found when all of them have been placed.
-/

namespace Asm64

namespace MachineCode

structure SameAddress (c other : MachineCode) : Prop where
  mod : c.modRM.mod = other.modRM.mod
  rm : c.modRM.rm = other.modRM.rm
  usesSib : c.usesSib = other.usesSib
  sib : c.sib = other.sib
  displacement : c.displacement = other.displacement
  x : c.rex.x = other.rex.x
  b : c.rex.b = other.rex.b

namespace SameAddress

theorem refl (c : MachineCode) : SameAddress c c := ⟨rfl, rfl, rfl, rfl, rfl, rfl, rfl⟩

theorem trans {c d e : MachineCode} (first : SameAddress c d) (second : SameAddress d e) :
    SameAddress c e :=
  ⟨first.mod.trans second.mod, first.rm.trans second.rm, first.usesSib.trans second.usesSib,
    first.sib.trans second.sib, first.displacement.trans second.displacement,
    first.x.trans second.x, first.b.trans second.b⟩

variable {c other : MachineCode} (same : SameAddress c other)

include same

theorem framed (framed : AddressFramed other) : AddressFramed c := by
  refine ⟨?_, ?_, ?_⟩
  · rw [same.usesSib, framed.usesSib, Decoder.hasSib, Decoder.hasSib, same.mod, same.rm]
  · rw [same.usesSib, same.sib]
    exact framed.sib
  · rw [same.displacement, framed.displacement, Decoder.displacementSize,
      Decoder.displacementSize, same.mod, same.rm, same.sib]

theorem addresses {base : Option Register} {index : Option ScaledIndex} {displacement : Int}
    (addresses : Addresses other base index displacement) :
    Addresses c base index displacement := by
  refine ⟨same.framed addresses.framed, ?_, ?_⟩
  · rw [same.mod]
    exact addresses.isMemory
  · intro opcodeLow
    rw [← addresses.memory opcodeLow]
    dsimp only [Decoder.Fields.memory, Decoder.Fields.base?, Decoder.Fields.index?,
      Decoder.Fields.scale, fields]
    rw [same.mod, same.rm, same.sib, same.displacement, same.x, same.b]

end SameAddress

theorem sameAddress_setReg (c : MachineCode) (code : Register.Code) :
    SameAddress { c with
      modRM := c.modRM.setReg code.low
      rex := c.rex.setR code.extension } c := by
  obtain ⟨-, -, x, b⟩ := c.rex.bits_setR code.extension
  exact ⟨ModRM.mod_setReg _ _, ModRM.rm_setReg _ _, rfl, rfl, rfl, x, b⟩

theorem sameButAddress_setRm (c : MachineCode) (code : Register.Code) :
    SameButAddress { c with
      modRM := (c.modRM.setMod ModRM.modRegister).setRm code.low
      rex := c.rex.setB code.extension } c := by
  obtain ⟨w, r, -, -⟩ := c.rex.bits_setB code.extension
  exact ⟨rfl, rfl, rfl, rfl, (ModRM.reg_setRm _ _).trans (ModRM.reg_setMod _ _), w, r,
    mark_setB _ _⟩

theorem framed_setRm {c : MachineCode} (blank : AddressBlank c) (code : Register.Code) :
    AddressFramed { c with
      modRM := (c.modRM.setMod ModRM.modRegister).setRm code.low
      rex := c.rex.setB code.extension } := by
  have mod : ((c.modRM.setMod ModRM.modRegister).setRm code.low).mod = 3 :=
    (ModRM.mod_setRm _ _).trans (ModRM.mod_setMod _ (by decide))
  refine ⟨?_, fun _ => blank.sib, ?_⟩
  · simp only [Decoder.hasSib, mod, blank.usesSib]
    rfl
  · simp only [Decoder.displacementSize, mod, blank.displacement]
    rfl

end MachineCode

namespace Form

open MachineCode

/-- What holds of a draft at all times: the operand size is settled, there is no REX prefix yet,
and a field is in use exactly when an operand has been placed there. -/
structure Draft.Progress (f : Form) (d : Draft) : Prop where
  legacy : d.code.legacy = if f.operandBits = 16 then 0x66 else 0
  wide : d.code.rex.w = decide (f.encoding.defaultBits < f.operandBits)
  unmarked : d.code.rex.byte &&& 0xF0 = 0
  usesModRM : d.code.usesModRM = false
  opcode : f.encoding.registerModifier = none ∨ d.usedRegister = false →
    d.code.opcode = f.encoding.opcode
  noModRM : f.encoding.modRM = .none → d.code.modRM = ⟨0⟩
  blank : d.usedRegisterOrMemory = false → AddressBlank d.code
  framed : d.usedRegisterOrMemory = true → f.encoding.modRM ≠ .none ∧ AddressFramed d.code
  noValue : d.usedValue = false → d.code.immediate = []
  value : d.usedValue = true → 8 * d.code.immediate.length = f.encoding.valueBits

/-- The operands of a draft are also in a later one. -/
structure Draft.Extends (f : Form) (d next : Draft) : Prop where
  needsRex : d.needsRex = true → next.needsRex = true
  highByte : d.highByte ≠ none → next.highByte ≠ none
  opcodeRegister : d.usedRegister = true → f.encoding.registerModifier ≠ none →
    next.code.opcode = d.code.opcode ∧ next.code.rex.b = d.code.rex.b
  regField : d.usedRegister = true → f.encoding.modRM = .register →
    next.code.modRM.reg = d.code.modRM.reg ∧ next.code.rex.r = d.code.rex.r
  place : d.usedRegisterOrMemory = true → SameAddress next.code d.code
  value : d.usedValue = true → next.code.immediate = d.code.immediate
  usedRegister : d.usedRegister = true → next.usedRegister = true
  usedRegisterOrMemory : d.usedRegisterOrMemory = true → next.usedRegisterOrMemory = true
  usedValue : d.usedValue = true → next.usedValue = true

namespace Draft.Extends

variable {f : Form} {d next last : Draft}

theorem refl (f : Form) (d : Draft) : Extends f d d :=
  ⟨id, id, fun _ _ => ⟨rfl, rfl⟩, fun _ _ => ⟨rfl, rfl⟩, fun _ => .refl _, fun _ => rfl, id, id, id⟩

theorem trans (first : Extends f d next) (second : Extends f next last) : Extends f d last where
  needsRex := second.needsRex ∘ first.needsRex
  highByte := second.highByte ∘ first.highByte
  opcodeRegister used modifier := by
    obtain ⟨opcode, b⟩ := first.opcodeRegister used modifier
    obtain ⟨nextOpcode, nextB⟩ := second.opcodeRegister (first.usedRegister used) modifier
    exact ⟨nextOpcode.trans opcode, nextB.trans b⟩
  regField used rule := by
    obtain ⟨reg, r⟩ := first.regField used rule
    obtain ⟨nextReg, nextR⟩ := second.regField (first.usedRegister used) rule
    exact ⟨nextReg.trans reg, nextR.trans r⟩
  place used := (second.place (first.usedRegisterOrMemory used)).trans (first.place used)
  value used := (second.value (first.usedValue used)).trans (first.value used)
  usedRegister := second.usedRegister ∘ first.usedRegister
  usedRegisterOrMemory := second.usedRegisterOrMemory ∘ first.usedRegisterOrMemory
  usedValue := second.usedValue ∘ first.usedValue

end Draft.Extends

section Steps

open Draft

variable {f : Form} {d : Draft}

theorem extends_noteRegister (f : Form) (d : Draft) (r : Register) :
    Extends f d (d.noteRegister r) :=
  { Extends.refl f d with
    needsRex := fun needed => by simp [noteRegister, needed]
    highByte := fun noted => by
      unfold noteRegister
      split
      · exact Option.some_ne_none r
      · exact noted }

theorem extends_withRegField (free : d.usedRegister = false) (r : Register) :
    Extends f d (d.withRegField r) :=
  { extends_noteRegister f d r with
    opcodeRegister := fun used => absurd used (by simp [free])
    regField := fun used => absurd used (by simp [free])
    place := fun _ => sameAddress_setReg d.code r.code
    value := fun _ => rfl
    usedRegister := fun _ => rfl }

theorem extends_of_sameButAddress {next : Draft} (arranged : f.Arranged)
    (hasModRM : f.encoding.modRM ≠ .none) (free : d.usedRegisterOrMemory = false)
    (needsRex : d.needsRex = true → next.needsRex = true)
    (highByte : d.highByte ≠ none → next.highByte ≠ none)
    (same : SameButAddress next.code d.code)
    (usedRegister : next.usedRegister = d.usedRegister)
    (usedValue : next.usedValue = d.usedValue) : Extends f d next where
  needsRex := needsRex
  highByte := highByte
  opcodeRegister _ modifier := (arranged.onePlace.elim modifier hasModRM).elim
  regField _ _ := ⟨same.reg, same.r⟩
  place used := absurd used (by simp [free])
  value _ := same.immediate
  usedRegister used := usedRegister.trans used
  usedRegisterOrMemory used := absurd used (by simp [free])
  usedValue used := usedValue.trans used

theorem extends_withValue (free : d.usedValue = false) (bytes : List UInt8)
    (label : Option Text) :
    Extends f d { d with
      code := { d.code with immediate := bytes }
      valueLabel := label
      usedValue := true } :=
  { Extends.refl f d with
    place := fun _ => ⟨rfl, rfl, rfl, rfl, rfl, rfl, rfl⟩
    value := fun used => absurd used (by simp [free])
    usedValue := fun _ => rfl }

theorem length_field {width : Width} (bits : f.encoding.valueBits = width.bits) (number : Nat) :
    8 * (littleEndian width.bytes number).length = f.encoding.valueBits := by
  rw [length_littleEndian, bits, Width.bits_eq]

variable (progress : d.Progress f)

include progress

theorem extends_withOpcodeRegister (arranged : f.Arranged)
    (modifier : f.encoding.registerModifier ≠ none) (free : d.usedRegister = false)
    (r : Register) : Extends f d (d.withOpcodeRegister r) :=
  { extends_noteRegister f d r with
    opcodeRegister := fun used => absurd used (by simp [free])
    regField := fun used => absurd used (by simp [free])
    place := fun used => (arranged.onePlace.elim modifier (progress.framed used).1).elim
    value := fun _ => rfl
    usedRegister := fun _ => rfl }

theorem progress_withOpcodeRegister (modifier : f.encoding.registerModifier ≠ none)
    (r : Register) : (d.withOpcodeRegister r).Progress f := by
  obtain ⟨w, -, x, -⟩ := d.code.rex.bits_setB r.code.extension
  exact { progress with
    wide := w.trans progress.wide
    unmarked := (mark_setB _ _).trans progress.unmarked
    opcode := fun unchanged => unchanged.elim (absurd · modifier) Bool.noConfusion
    blank := fun unused =>
      { progress.blank unused with index := x.trans (progress.blank unused).index }
    framed := fun used => ⟨(progress.framed used).1, { (progress.framed used).2 with }⟩ }

theorem progress_withRegField (modifier : f.encoding.registerModifier = none)
    (rule : f.encoding.modRM = .register) (r : Register) : (d.withRegField r).Progress f := by
  obtain ⟨w, -, x, -⟩ := d.code.rex.bits_setR r.code.extension
  have same := sameAddress_setReg d.code r.code
  exact { progress with
    wide := w.trans progress.wide
    unmarked := (Rex.mark_replaceBits _ _ (by decide)).trans progress.unmarked
    opcode := fun _ => progress.opcode (Or.inl modifier)
    noModRM := fun none => absurd (rule.symm.trans none) (by simp)
    blank := fun unused =>
      { progress.blank unused with index := x.trans (progress.blank unused).index }
    framed := fun used => ⟨(progress.framed used).1, same.framed (progress.framed used).2⟩ }

theorem progress_of_sameButAddress {next : Draft} (hasModRM : f.encoding.modRM ≠ .none)
    (same : SameButAddress next.code d.code) (framed : AddressFramed next.code)
    (usedRegister : next.usedRegister = d.usedRegister) (usedValue : next.usedValue = d.usedValue)
    (used : next.usedRegisterOrMemory = true) : next.Progress f where
  legacy := same.legacy.trans progress.legacy
  wide := same.w.trans progress.wide
  unmarked := same.mark.trans progress.unmarked
  usesModRM := same.usesModRM.trans progress.usesModRM
  opcode unchanged := same.opcode.trans (progress.opcode (usedRegister ▸ unchanged))
  noModRM none := absurd none hasModRM
  blank unused := absurd used (by simp [unused])
  framed _ := ⟨hasModRM, framed⟩
  noValue unused := same.immediate.trans (progress.noValue (usedValue ▸ unused))
  value used := same.immediate ▸ progress.value (usedValue ▸ used)

theorem progress_withValue {bytes : List UInt8}
    (length : 8 * bytes.length = f.encoding.valueBits) (label : Option Text) :
    Draft.Progress f { d with
      code := { d.code with immediate := bytes }
      valueLabel := label
      usedValue := true } :=
  { progress with
    blank := fun unused => { progress.blank unused with }
    framed := fun used => ⟨(progress.framed used).1, { (progress.framed used).2 with }⟩
    noValue := Bool.noConfusion
    value := fun _ => length }

theorem progress_and_extends_of_placement {type : OperandType} {value : OperandValue}
    {next : Draft} (arranged : f.Arranged) (inForm : type ∈ f.operands)
    (placement : Placement f type value d next) : next.Progress f ∧ Extends f d next := by
  cases placement with
  | fixed implied => exact ⟨progress, .refl f d⟩
  | opcodeRegister implied isRegister free general bits modifier =>
      exact ⟨progress_withOpcodeRegister progress modifier _,
        extends_withOpcodeRegister progress arranged modifier free _⟩
  | regField implied isRegister free general bits modifier =>
      have rule := arranged.rule_of_register inForm isRegister modifier
      exact ⟨progress_withRegField progress modifier rule _, extends_withRegField free _⟩
  | @rmRegister r _ isPlace free hasModRM general bits =>
      have same := sameButAddress_setRm d.code r.code
      have noted := extends_noteRegister f d r
      have framed := framed_setRm (progress.blank free) r.code
      exact ⟨progress_of_sameButAddress progress hasModRM same framed rfl rfl rfl,
        extends_of_sameButAddress arranged hasModRM free noted.needsRex noted.highByte same rfl rfl⟩
  | memory isPlace free hasModRM valid =>
      obtain ⟨addresses, same⟩ := addresses_placeMemory (progress.blank free) valid
      exact ⟨progress_of_sameButAddress progress hasModRM same addresses.framed rfl rfl rfl,
        extends_of_sameButAddress arranged hasModRM free id id same rfl rfl⟩
  | label isValue free bits =>
      exact ⟨progress_withValue progress (length_field bits 0) _, extends_withValue free _ _⟩
  | integer isValue free bits =>
      exact ⟨progress_withValue progress (length_field bits _) _, extends_withValue free _ _⟩

end Steps

/-! ### Operands that can be found -/

/-- A draft holds a register of a width, and has noted what the register means for the REX
prefix. -/
structure Draft.Holds (d : Draft) (width : Width) (r : Register) : Prop where
  general : r.isGeneral = true
  width : r.width = width
  needsRex : r.needsRex = true → d.needsRex = true
  highByte : r.isHighByte = true → d.highByte ≠ none

theorem Draft.Holds.extend {f : Form} {d next : Draft} {width : Width} {r : Register}
    (held : d.Holds width r) (extension : Extends f d next) : next.Holds width r :=
  ⟨held.general, held.width, extension.needsRex ∘ held.needsRex,
    extension.highByte ∘ held.highByte⟩

/-- An operand can be found in the fields that its type says. -/
inductive Draft.Shown (f : Form) (d : Draft) : OperandType → OperandValue → Prop where
  | fixed {type : OperandType} {r : Register} :
      type.fixedRegister? = some r → Shown f d type (.register r)
  | opcodeRegister {width : Width} {r : Register} :
      f.encoding.registerModifier ≠ none → d.usedRegister = true → d.Holds width r →
      d.code.opcode = addToLast f.encoding.opcode r.code.low →
      d.code.rex.b = r.code.extension → Shown f d (.register width) (.register r)
  | regField {width : Width} {r : Register} :
      f.encoding.registerModifier = none → f.encoding.modRM = .register →
      d.usedRegister = true → d.Holds width r → d.code.modRM.reg = r.code.low →
      d.code.rex.r = r.code.extension → Shown f d (.register width) (.register r)
  | rmRegister {width : Width} {r : Register} :
      d.usedRegisterOrMemory = true → d.Holds width r → d.code.modRM.mod = 3 →
      d.code.modRM.rm = r.code.low → d.code.rex.b = r.code.extension →
      Shown f d (.registerOrMemory width) (.register r)
  | memory {type : OperandType} {m : Memory} :
      type.isRegisterOrMemory = true → d.usedRegisterOrMemory = true →
      Addresses d.code m.base m.index m.displacement.constantPart →
      Shown f d type (.memory m)
  | label {type : OperandType} {width : Width} {name : Text} :
      type.valueWidth? = some width → d.usedValue = true →
      d.code.immediate = littleEndian width.bytes 0 → Shown f d type (.label name)
  | integer {type : OperandType} {width : Width} {i : Integer} :
      type.valueWidth? = some width → d.usedValue = true →
      d.code.immediate = littleEndian width.bytes i.toUInt64.toNat →
      Shown f d type (.integer i)

section Shown

open Draft

variable {f : Form} {d next : Draft} {type : OperandType} {value : OperandValue}

theorem Draft.Shown.extend (shown : d.Shown f type value) (extension : Extends f d next) :
    next.Shown f type value := by
  cases shown with
  | fixed implied => exact .fixed implied
  | opcodeRegister modifier used held opcode b =>
      obtain ⟨sameOpcode, sameB⟩ := extension.opcodeRegister used modifier
      exact .opcodeRegister modifier (extension.usedRegister used) (held.extend extension)
        (sameOpcode.trans opcode) (sameB.trans b)
  | regField modifier rule used held reg r =>
      obtain ⟨sameReg, sameR⟩ := extension.regField used rule
      exact .regField modifier rule (extension.usedRegister used) (held.extend extension)
        (sameReg.trans reg) (sameR.trans r)
  | rmRegister used held mod rm b =>
      have same := extension.place used
      exact .rmRegister (extension.usedRegisterOrMemory used) (held.extend extension)
        (same.mod.trans mod) (same.rm.trans rm) (same.b.trans b)
  | memory isPlace used addresses =>
      exact .memory isPlace (extension.usedRegisterOrMemory used)
        ((extension.place used).addresses addresses)
  | label isValue used immediate =>
      exact .label isValue (extension.usedValue used) ((extension.value used).trans immediate)
  | integer isValue used immediate =>
      exact .integer isValue (extension.usedValue used) ((extension.value used).trans immediate)

theorem holds_noteRegister {width : Width} {r : Register} (general : r.isGeneral = true)
    (bits : r.bits = width.bits) (d : Draft) : (d.noteRegister r).Holds width r where
  general := general
  width := Width.bits_injective bits
  needsRex needed := by simp [noteRegister, needed]
  highByte isHighByte := by simp [noteRegister, isHighByte]

theorem shown_of_placement (arranged : f.Arranged) (progress : d.Progress f)
    (inForm : type ∈ f.operands) (placement : Placement f type value d next) :
    next.Shown f type value := by
  cases placement with
  | fixed implied => exact .fixed implied
  | @opcodeRegister r _ implied isRegister free general bits modifier =>
      cases type <;> cases isRegister
      have held := holds_noteRegister general bits d
      have opcode := congrArg (addToLast · r.code.low) (progress.opcode (Or.inr free))
      exact .opcodeRegister modifier rfl { held with } opcode (d.code.rex.bits_setB _).2.2.2
  | @regField r _ implied isRegister free general bits modifier =>
      have rule := arranged.rule_of_register inForm isRegister modifier
      cases type <;> cases isRegister
      have held := holds_noteRegister general bits d
      exact .regField modifier rule rfl { held with } (ModRM.reg_setReg _ r.low_lt)
        (d.code.rex.bits_setR _).2.1
  | @rmRegister r _ isPlace free hasModRM general bits =>
      cases type with
      | registerOrMemory width =>
          have held := holds_noteRegister general bits d
          have mod : ((d.code.modRM.setMod ModRM.modRegister).setRm r.code.low).mod = 3 :=
            (ModRM.mod_setRm _ _).trans (ModRM.mod_setMod _ (by decide))
          exact .rmRegister rfl { held with } mod (ModRM.rm_setRm _ r.low_lt)
            (d.code.rex.bits_setB _).2.2.2
      | memory => exact absurd bits r.width.bits_ne_zero
      | _ => cases isPlace
  | memory isPlace free hasModRM valid =>
      exact .memory isPlace rfl (addresses_placeMemory (progress.blank free) valid).1
  | label isValue free bits => exact .label isValue rfl rfl
  | integer isValue free bits => exact .integer isValue rfl rfl

/-- All operands are shown when they have been placed. -/
theorem shown_of_placeOperands (arranged : f.Arranged) {position : Nat} {types : List OperandType}
    {operands : List Operand} (inForm : types ⊆ f.operands)
    (count : operands.length = types.length) (progress : d.Progress f)
    (placed : f.placeOperands position types operands d = .ok next) :
    next.Progress f ∧ Extends f d next ∧
      List.Forall₂ (fun type operand => next.Shown f type operand.value) types operands := by
  induction types generalizing position operands d with
  | nil =>
      simp only [placeOperands, Except.ok.injEq] at placed
      cases List.length_eq_zero_iff.mp count
      subst placed
      exact ⟨progress, .refl f d, .nil⟩
  | cons type types inductionHypothesis =>
      cases operands with
      | nil => cases count
      | cons operand operands =>
          simp only [placeOperands, bind_eq_ok_iff] at placed
          obtain ⟨middle, first, rest⟩ := placed
          obtain ⟨here, later⟩ := List.cons_subset.mp inForm
          have placement := placement_of_placeOperand first
          obtain ⟨middleProgress, toMiddle⟩ :=
            progress_and_extends_of_placement progress arranged here placement
          obtain ⟨lastProgress, toLast, shown⟩ :=
            inductionHypothesis later (Nat.succ.inj count) middleProgress rest
          have first := shown_of_placement arranged progress here placement
          exact ⟨lastProgress, toMiddle.trans toLast, .cons (first.extend toLast) shown⟩

end Shown

end Form

end Asm64
