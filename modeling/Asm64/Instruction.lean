import Asm64.Form
import Asm64.MachineCode

/-!
# Encoding instructions

`Form.encode` turns a form and operands for it into machine code. Labels cannot be resolved
here: their fields are filled with zeros and returned as references. A form that disagrees with
its encoding, or operands that the form does not accept, are reported as inconsistencies; for
matching operands of a well-formed form the only failure is a high byte register next to
something that needs a REX prefix.
-/

namespace Asm64

/-- A field of an instruction that holds the distance from the end of the instruction to a
label. -/
structure Reference where
  label : Text
  offset : Nat
  size : Nat
  /-- The length of the instruction. -/
  relativeTo : Nat
deriving DecidableEq, Repr

structure Instruction where
  code : MachineCode
  references : List Reference
deriving DecidableEq, Repr

inductive EncodeError where
  | operandCount (got want : Nat)
  | fixedRegister (position : Nat) (operand : Text) (register : Register)
  | unexpectedRegister (position : Nat) (operand : Text)
  | unexpectedRegisterOrMemory (position : Nat) (operand : Text)
  | notRegisterOrMemory (position : Nat) (operand : Text)
  | unexpectedValue (position : Nat) (operand : Text)
  | notValue (position : Nat) (operand : Text)
  | unsupportedType (position : Nat) (type : OperandType)
  | registerWidth (register : Register) (bits : Nat)
  | missingRegisterField
  | missingDigitOperand (digit : Fin 8)
  | machineCode (fault : MachineCode.Fault)
  | memory (fault : Memory.Fault)
  | highByteWithRex (register : Register)
deriving DecidableEq, Repr

namespace EncodeError

/-- Whether the form and its operands contradict each other. That is a mistake in the catalog or
in the caller, not in the program being assembled. -/
def isInconsistency : EncodeError → Bool
  | memory _ => false
  | highByteWithRex _ => false
  | _ => true

def message (form : Text) : EncodeError → Text
  | operandCount got want =>
    form ++ ascii ": got " ++ Text.decimal got ++ ascii " operands, want " ++ Text.decimal want
  | fixedRegister position operand register =>
    at_ position ++ ascii "got " ++ operand ++ ascii ", want " ++ register.name
  | unexpectedRegister position operand =>
    at_ position ++ ascii "unexpected register operand " ++ operand
  | unexpectedRegisterOrMemory position operand =>
    at_ position ++ ascii "unexpected register or memory operand " ++ operand
  | notRegisterOrMemory position operand =>
    at_ position ++ ascii "got " ++ operand ++ ascii ", want register or memory"
  | unexpectedValue position operand => at_ position ++ ascii "unexpected value " ++ operand
  | notValue position operand => at_ position ++ ascii "got " ++ operand ++ ascii ", want value"
  | unsupportedType position type =>
    at_ position ++ ascii "unsupported operand type " ++ type.name
  | registerWidth register bits =>
    ascii "register " ++ register.name ++ ascii " used as a " ++ Text.decimal bits ++
      ascii "-bit register"
  | missingRegisterField =>
    form ++ ascii ": /r without a register and register or memory operand"
  | missingDigitOperand digit =>
    form ++ ascii ": /" ++ Text.decimal digit.val ++ ascii " without a register or memory operand"
  | machineCode fault => fault.message
  | memory fault => fault.message
  | highByteWithRex register =>
    ascii "register " ++ register.name ++ ascii " cannot be used with a REX prefix"
where
  at_ (position : Nat) : Text := form ++ ascii ": operand " ++ Text.decimal position ++ ascii ": "

end EncodeError

namespace MachineCode

/-- The r/m field and, where one is needed, the SIB byte for a base and an index. Without a base,
or with a base whose low bits are those of rsp, there has to be a SIB byte. -/
def placeBaseAndIndex (c : MachineCode) (base : Option Register) (index : Option ScaledIndex) :
    MachineCode :=
  let low := match base with
    | some r => r.code.low
    | none => Sib.baseNone
  let c := match base with
    | some r => { c with rex := c.rex.setB r.code.extension }
    | none => c
  match index with
  | some index =>
    let code := index.register.code
    { c with
      usesSib := true
      modRM := c.modRM.setRm ModRM.rmSib
      rex := c.rex.setX code.extension
      sib := ((c.sib.setBase low).setIndex code.low).setScale index.scale.code }
  | none =>
    if base = none ∨ low = Sib.baseStackPointer then
      { c with
        usesSib := true
        modRM := c.modRM.setRm ModRM.rmSib
        sib := (c.sib.setBase low).setIndex Sib.indexNone }
    else { c with modRM := c.modRM.setRm low }

/-- The mod field and the displacement after a base, or without one. Without a base there are
always four bytes, and a label always takes four. A base whose low bits are those of rbp needs a
displacement even if it is zero. -/
def placeDisplacement (c : MachineCode) (base : Option Register) (displacement : Displacement) :
    MachineCode :=
  match base, displacement with
  | none, d => { c with modRM := c.modRM.setMod ModRM.modPlain }.putDisplacement 4 d.constantPart
  | some _, .label _ => { c with modRM := c.modRM.setMod ModRM.modDword }.putDisplacement 4 0
  | some r, .constant d =>
    if d = 0 ∧ r.code.low ≠ ModRM.rmRelative then { c with modRM := c.modRM.setMod ModRM.modPlain }
    else if -128 ≤ d ∧ d ≤ 127 then
      { c with modRM := c.modRM.setMod ModRM.modByte }.putDisplacement 1 d
    else { c with modRM := c.modRM.setMod ModRM.modDword }.putDisplacement 4 d

/-- The fields for a memory operand that passes `Memory.check`. -/
def placeMemory (c : MachineCode) (m : Memory) : MachineCode :=
  if m.base = some .instructionPointer then
    { c with modRM := (c.modRM.setMod ModRM.modPlain).setRm ModRM.rmRelative }.putDisplacement 4
      m.displacement.constantPart
  else (c.placeBaseAndIndex m.base m.index).placeDisplacement m.base m.displacement

end MachineCode

namespace Form

/-- An instruction whose operands are being placed. -/
structure Draft where
  code : MachineCode
  /-- Whether a register so far can only be written with a REX prefix. -/
  needsRex : Bool
  /-- The last register that cannot be written with one. -/
  highByte : Option Register
  displacementLabel : Option Text
  valueLabel : Option Text
  usedRegister : Bool
  usedRegisterOrMemory : Bool
  usedValue : Bool
deriving DecidableEq, Repr

namespace Draft

def ofCode (code : MachineCode) : Draft := ⟨code, false, none, none, none, false, false, false⟩

def noteRegister (d : Draft) (r : Register) : Draft :=
  { d with
    needsRex := d.needsRex || r.needsRex
    highByte := if r.isHighByte then some r else d.highByte }

end Draft

def registerCode (r : Register) (bits : Nat) : Except EncodeError Register.Code :=
  match r.codeAt? bits with
  | some code => .ok code
  | none => .error (.registerWidth r bits)

/-- Adds a register number to the last opcode byte. -/
def addToLast (opcode : List UInt8) (low : UInt8) : List UInt8 :=
  match opcode.getLast? with
  | some last => opcode.dropLast ++ [last + low]
  | none => []

/-- Places a register operand, in the last opcode byte or in the reg field. -/
def placeRegister (f : Form) (position : Nat) (type : OperandType) (operand : Operand)
    (d : Draft) : Except EncodeError Draft :=
  match operand.value with
  | .register r =>
    if d.usedRegister then .error (.unexpectedRegister position operand.text)
    else do
      let code ← registerCode r type.bits
      let d := { d.noteRegister r with usedRegister := true }
      if f.encoding.registerModifier ≠ none then
        return { d with code := { d.code with
          opcode := addToLast d.code.opcode code.low
          rex := d.code.rex.setB code.extension } }
      else
        return { d with code := { d.code with
          modRM := d.code.modRM.setReg code.low
          rex := d.code.rex.setR code.extension } }
  | _ => .error (.unexpectedRegister position operand.text)

def placeRegisterOrMemory (f : Form) (position : Nat) (type : OperandType) (operand : Operand)
    (d : Draft) : Except EncodeError Draft :=
  if d.usedRegisterOrMemory ∨ f.encoding.modRM = .none then
    .error (.unexpectedRegisterOrMemory position operand.text)
  else
    match operand.value with
    | .register r => do
      let code ← registerCode r type.bits
      let d := { d.noteRegister r with usedRegisterOrMemory := true }
      return { d with code := { d.code with
        modRM := (d.code.modRM.setMod ModRM.modRegister).setRm code.low
        rex := d.code.rex.setB code.extension } }
    | .memory m =>
      match m.fault? with
      | some fault => .error (.memory fault)
      | none =>
        .ok { d with
          code := d.code.placeMemory m
          displacementLabel := m.displacement.label?
          usedRegisterOrMemory := true }
    | _ => .error (.notRegisterOrMemory position operand.text)

/-- Places an immediate or code offset in the value field. -/
def placeValue (f : Form) (position : Nat) (width : Width) (operand : Operand)
    (d : Draft) : Except EncodeError Draft :=
  if d.usedValue ∨ f.encoding.valueBits ≠ width.bits then
    .error (.unexpectedValue position operand.text)
  else
    match operand.value with
    | .label name =>
      .ok { d with
        code := d.code.putImmediate width.bytes 0
        valueLabel := some name
        usedValue := true }
    | .integer i =>
      .ok { d with code := d.code.putImmediate width.bytes i.toUInt64, usedValue := true }
    | _ => .error (.notValue position operand.text)

/-- Places one operand. A register that the opcode implies takes no place. -/
def placeOperand (f : Form) (position : Nat) (type : OperandType) (operand : Operand)
    (d : Draft) : Except EncodeError Draft :=
  match type.fixedRegister? with
  | some r =>
    if operand.value = .register r then .ok d
    else .error (.fixedRegister position operand.text r)
  | none =>
    if type.isRegister then f.placeRegister position type operand d
    else if type.isRegisterOrMemory then f.placeRegisterOrMemory position type operand d
    else match type.valueWidth? with
      | some width => f.placeValue position width operand d
      | none => .error (.unsupportedType position type)

def placeOperands (f : Form) : (position : Nat) → List OperandType → List Operand → Draft →
    Except EncodeError Draft
  | position, type :: types, operand :: operands, d => do
    let d ← f.placeOperand position type operand d
    f.placeOperands (position + 1) types operands d
  | _, _, _, d => .ok d

/-- The machine code before any operand: the operand size and the opcode. -/
def start (f : Form) : Except EncodeError MachineCode :=
  let c := { MachineCode.empty with
    legacy := if f.operandBits = 16 then MachineCode.operandSizeOverride else 0
    rex := Rex.setW ⟨0⟩ (f.encoding.defaultBits < f.operandBits) }
  (c.setOpcode f.encoding.opcode).mapError .machineCode

/-- Fills in the reg field of a form with a digit, and switches the ModR/M byte on. -/
def finishModRM (f : Form) (d : Draft) : Except EncodeError Draft :=
  match f.encoding.modRM with
  | .none => .ok d
  | .register =>
    if d.usedRegister ∧ d.usedRegisterOrMemory then
      .ok { d with code := { d.code with usesModRM := true } }
    else .error .missingRegisterField
  | .digit value =>
    if d.usedRegisterOrMemory then
      .ok { d with code := { d.code with
        modRM := d.code.modRM.setReg (UInt8.ofNat value.val)
        usesModRM := true } }
    else .error (.missingDigitOperand value)

/-- Switches the REX prefix on if it has a bit set or a register needs it. -/
def finishRex (d : Draft) : Except EncodeError Draft :=
  if d.code.rex.byte ≠ 0 ∨ d.needsRex then
    match d.highByte with
    | some r => .error (.highByteWithRex r)
    | none => .ok { d with code := { d.code with rex := d.code.rex.setOn } }
  else .ok d

/-- The fields that wait for a label: the displacement first, then the value. -/
def Draft.references (d : Draft) : List Reference :=
  let reference (offset size : Nat) (label : Text) : Reference :=
    ⟨label, offset, size, d.code.length⟩
  (d.displacementLabel.map
    (reference d.code.displacementOffset d.code.displacement.length)).toList ++
  (d.valueLabel.map (reference d.code.immediateOffset d.code.immediate.length)).toList

def encode (f : Form) (operands : List Operand) : Except EncodeError Instruction := do
  if operands.length ≠ f.operands.length then
    .error (.operandCount operands.length f.operands.length)
  let code ← f.start
  let d ← f.placeOperands 1 f.operands operands (.ofCode code)
  let d ← f.finishModRM d
  let d ← finishRex d
  return ⟨d.code, d.references⟩

end Form

end Asm64
