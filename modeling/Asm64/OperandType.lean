import Asm64.Operand

/-!
# Operand types

The type of an operand position says which operands it takes and where the instruction holds
them: in the opcode, in the ModR/M byte, or as a value after everything else. The catalog
writes each type by a short name and numbers them from one.
-/

namespace Asm64

inductive OffsetWidth where
  | byte
  | word
  | dword
deriving DecidableEq, Repr

def OffsetWidth.width : OffsetWidth → Width
  | byte => .byte
  | word => .word
  | dword => .dword

inductive OperandType where
  /-- The register that the opcode implies: al, ax, eax or rax. -/
  | accumulator (width : Width)
  /-- The shift count in cl. -/
  | count
  /-- The device address in dx, which says nothing about the operand size. -/
  | deviceAddress
  | register (width : Width)
  | registerOrMemory (width : Width)
  /-- Memory of any size. -/
  | memory
  | immediate (width : Width)
  /-- A code offset from the end of the instruction. -/
  | relative (width : OffsetWidth)
  /-- A number that is no type. No operand matches it. -/
  | other (number : UInt8)
deriving DecidableEq, Repr

namespace OperandType

/-- The types in the order of their numbers, with their names. -/
def table : List (OperandType × String) :=
  [(accumulator .byte, "AL"), (accumulator .word, "AX"), (accumulator .dword, "EAX"),
    (accumulator .qword, "RAX"), (count, "CL"), (deviceAddress, "DX"),
    (register .byte, "reg8"), (register .word, "reg16"), (register .dword, "reg32"),
    (register .qword, "reg64"),
    (registerOrMemory .byte, "reg/mem8"), (registerOrMemory .word, "reg/mem16"),
    (registerOrMemory .dword, "reg/mem32"), (registerOrMemory .qword, "reg/mem64"),
    (memory, "mem"),
    (immediate .byte, "imm8"), (immediate .word, "imm16"), (immediate .dword, "imm32"),
    (immediate .qword, "imm64"),
    (relative .byte, "rel8off"), (relative .word, "rel16off"), (relative .dword, "rel32off")]

def all : List OperandType := table.map (·.1)

def ofName? (t : Text) : Option OperandType :=
  (table.find? fun entry => ascii entry.2 == t).map (·.1)

def ofNumber (n : UInt8) : OperandType :=
  if n = 0 then other 0 else (all[n.toNat - 1]?).getD (other n)

def name : OperandType → Text
  | other number => ascii "OperandType(" ++ Text.decimal number.toNat ++ ascii ")"
  | t =>
    match table.find? fun entry => entry.1 = t with
    | some entry => ascii entry.2
    | none => []

/-- The operand size that the type implies, or zero. -/
def bits : OperandType → Nat
  | accumulator width => width.bits
  | count => 8
  | register width => width.bits
  | registerOrMemory width => width.bits
  | _ => 0

def valueWidth? : OperandType → Option Width
  | immediate width => some width
  | relative width => some width.width
  | _ => none

def valueBits (t : OperandType) : Nat :=
  match t.valueWidth? with
  | some width => width.bits
  | none => 0

/-- The only register that the position takes, which the opcode implies. -/
def fixedRegister? : OperandType → Option Register
  | accumulator width => some (.general width 0)
  | count => some (.general .byte 1)
  | deviceAddress => some (.general .word 2)
  | _ => none

def isRegister : OperandType → Bool
  | register _ => true
  | _ => false

/-- Whether the operand is held in the r/m field of the ModR/M byte. -/
def isRegisterOrMemory : OperandType → Bool
  | registerOrMemory _ => true
  | memory => true
  | _ => false

def isImmediate : OperandType → Bool
  | immediate _ => true
  | _ => false

def isRelative : OperandType → Bool
  | relative _ => true
  | _ => false

def isValue (t : OperandType) : Bool := t.isImmediate || t.isRelative

/-- Whether a value field of `width` is sign-extended to an operand size of `operandBits`. -/
def isSignExtended (width : Width) (operandBits : Nat) : Bool := width.bits < operandBits

/-- Whether an operand can stand in a position of this type, in an instruction with operands of
`operandBits`. The distance to a label is not known yet, so a label is not given to an
immediate that would be sign-extended from less than 32 bits. -/
def accepts (t : OperandType) (operandBits : Nat) (value : OperandValue) : Bool :=
  match t with
  | accumulator width => value = .register (.general width 0)
  | count => value = .register (.general .byte 1)
  | deviceAddress => value = .register (.general .word 2)
  | register width =>
    match value with
    | .register r => r.isGeneral && r.width = width
    | _ => false
  | registerOrMemory width =>
    match value with
    | .register r => r.isGeneral && r.width = width
    | .memory m => (m.size = none ∨ m.size = some width) && m.isValid
    | _ => false
  | memory =>
    match value with
    | .memory m => m.isValid
    | _ => false
  | immediate width =>
    match value with
    | .label _ => min operandBits 32 ≤ width.bits
    | .integer i => if isSignExtended width operandBits then i.fitsSigned width else i.fits width
    | _ => false
  | relative width =>
    match value with
    | .label _ => true
    | .integer i => i.fitsSigned width.width
    | _ => false
  | other _ => false

end OperandType

end Asm64
