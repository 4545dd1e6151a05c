import Asm64.Instruction
import Asm64.Proofs.Word

/-!
# Reading instructions as the processor does

The bytes of an instruction are first cut into their fields, which depends on the form only where
the processor would know the instruction from its opcode: whether a register is in the opcode,
whether there is a ModR/M byte, and how long the value is.  The operands are then read off the
fields.
-/

namespace Asm64

/-- What an operand is to the processor. -/
inductive Meaning where
  | register (register : Register)
  | memory (base : Option Register) (index : Option ScaledIndex) (displacement : Int)
  | value (number : Int)
deriving DecidableEq, Repr

/-- Whether the field of a value stands for a signed number: a code offset, or a value that is
extended to the operand size. -/
def OperandType.isSigned (type : OperandType) (width : Width) (operandBits : Nat) : Bool :=
  type.isRelative || isSignExtended width operandBits

/-- What an operand means in a position of a type.  The size of a memory operand is left out, a
value that fills its operand is taken modulo the size of its field, and a label is zero for as
long as it is not known. -/
def OperandType.meaning (type : OperandType) (operandBits : Nat) : OperandValue → Meaning
  | .register r => .register r
  | .memory m => .memory m.base m.index m.displacement.constantPart
  | .label _ => .value 0
  | .integer i =>
    match type.valueWidth? with
    | some width =>
      .value (if type.isSigned width operandBits then i.value else i.value % 2 ^ width.bits)
    | none => .value i.value

namespace Decoder

/-- The fields of an instruction.  Those that are not there are zero or empty. -/
structure Fields where
  hasSizeOverride : Bool
  rex : Rex
  /-- The low three bits of the last opcode byte, if they hold a register. -/
  opcodeLow : UInt8
  modRM : ModRM
  sib : Sib
  displacement : List UInt8
  value : List UInt8
deriving DecidableEq, Repr

/-- Reads the byte that selects 16-bit operands. -/
def readSizeOverride : List UInt8 → Bool × List UInt8
  | [] => (false, [])
  | byte :: rest => if byte = 0x66 then (true, rest) else (false, byte :: rest)

/-- Reads a byte from 40 to 4F. -/
def readRex : List UInt8 → Rex × List UInt8
  | [] => (⟨0⟩, [])
  | byte :: rest => if byte &&& 0xF0 = 0x40 then (⟨byte⟩, rest) else (⟨0⟩, byte :: rest)

def readOpcode? (holdsRegister : Bool) : (opcode bytes : List UInt8) → Option (UInt8 × List UInt8)
  | [last], byte :: rest =>
    if holdsRegister then if byte &&& 0xF8 = last then some (byte &&& 7, rest) else none
    else if byte = last then some (0, rest) else none
  | first :: second :: opcode, byte :: rest =>
    if byte = first then readOpcode? holdsRegister (second :: opcode) rest else none
  | _, _ => none

def readBytes? (count : Nat) (bytes : List UInt8) : Option (List UInt8 × List UInt8) :=
  if count ≤ bytes.length then some (bytes.take count, bytes.drop count) else none

def hasSib (m : ModRM) : Bool := m.mod ≠ 3 ∧ m.rm = 4

def displacementSize (m : ModRM) (s : Sib) : Nat :=
  if m.mod = 1 then 1
  else if m.mod = 2 then 4
  else if m.mod = 0 ∧ (m.rm = 5 ∨ (m.rm = 4 ∧ s.base = 5)) then 4
  else 0

def readSib? (m : ModRM) (bytes : List UInt8) : Option (Sib × List UInt8) :=
  if hasSib m then
    match bytes with
    | [] => none
    | byte :: rest => some (⟨byte⟩, rest)
  else some (⟨0⟩, bytes)

/-- Reads the ModR/M byte, the SIB byte and the displacement. -/
def readAddress? (rule : ModRMRule) (bytes : List UInt8) :
    Option ((ModRM × Sib × List UInt8) × List UInt8) :=
  if rule = .none then some ((⟨0⟩, ⟨0⟩, []), bytes)
  else
    match bytes with
    | [] => none
    | byte :: rest => do
      let (sib, rest) ← readSib? ⟨byte⟩ rest
      let (displacement, rest) ← readBytes? (displacementSize ⟨byte⟩ sib) rest
      return ((⟨byte⟩, sib, displacement), rest)

/-- Whether the reg field is the one that belongs to the opcode. -/
def matchesRule (m : ModRM) : ModRMRule → Bool
  | .digit value => m.reg.toNat = value.val
  | _ => true

/-- Reads the fields of an instruction, and fails if bytes are left over. -/
def readFields? (e : Encoding) (bytes : List UInt8) : Option Fields := do
  let (hasSizeOverride, bytes) := readSizeOverride bytes
  let (rex, bytes) := readRex bytes
  let (opcodeLow, bytes) ← readOpcode? e.registerModifier.isSome e.opcode bytes
  let ((modRM, sib, displacement), bytes) ← readAddress? e.modRM bytes
  let (value, bytes) ← readBytes? (e.valueBits / 8) bytes
  if bytes.isEmpty ∧ matchesRule modRM e.modRM then
    return ⟨hasSizeOverride, rex, opcodeLow, modRM, sib, displacement, value⟩
  else none

def registerNumber (extension : Bool) (low : UInt8) : Fin 16 :=
  Fin.ofNat 16 (low.toNat + if extension then 8 else 0)

/-- The register with a number.  The byte registers 4 to 7 depend on whether there is a REX
prefix. -/
def register (hasRex : Bool) (width : Width) (extension : Bool) (low : UInt8) : Register :=
  if width = .byte ∧ hasRex = false ∧ 4 ≤ low then .highByte (Fin.ofNat 4 (low.toNat - 4))
  else .general width (registerNumber extension low)

namespace Fields

variable (fields : Fields)

def hasRex : Bool := fields.rex.byte ≠ 0

def base? : Option Register :=
  if fields.modRM.rm = 4 then
    if fields.modRM.mod = 0 ∧ fields.sib.base = 5 then none
    else some (.general .qword (registerNumber fields.rex.b fields.sib.base))
  else if fields.modRM.mod = 0 ∧ fields.modRM.rm = 5 then some .instructionPointer
  else some (.general .qword (registerNumber fields.rex.b fields.modRM.rm))

def scale : Scale :=
  if fields.sib.scale = 0 then .one
  else if fields.sib.scale = 1 then .two
  else if fields.sib.scale = 2 then .four
  else .eight

def index? : Option ScaledIndex :=
  if fields.modRM.rm = 4 ∧ ¬(fields.sib.index = 4 ∧ fields.rex.x = false) then
    some ⟨.general .qword (registerNumber fields.rex.x fields.sib.index), fields.scale⟩
  else none

/-- The memory operand that the r/m field stands for, if it is not a register. -/
def memory : Meaning :=
  .memory fields.base? fields.index? (signedOfLittleEndian fields.displacement)

def number (isSigned : Bool) : Int :=
  if isSigned then signedOfLittleEndian fields.value else ofLittleEndian fields.value

def operand? (f : Form) (type : OperandType) : Option Meaning :=
  match type with
  | .accumulator _ | .count | .deviceAddress => type.fixedRegister?.map .register
  | .register width =>
    if f.encoding.registerModifier ≠ none then
      some (.register (register fields.hasRex width fields.rex.b fields.opcodeLow))
    else some (.register (register fields.hasRex width fields.rex.r fields.modRM.reg))
  | .registerOrMemory width =>
    if fields.modRM.mod = 3 then
      some (.register (register fields.hasRex width fields.rex.b fields.modRM.rm))
    else some fields.memory
  | .memory => if fields.modRM.mod = 3 then none else some fields.memory
  | .immediate width => some (.value (fields.number (type.isSigned width f.operandBits)))
  | .relative width => some (.value (fields.number (type.isSigned width.width f.operandBits)))
  | .other _ => none

end Fields

end Decoder

structure Decoding where
  /-- Whether a prefix selects 16-bit operands. -/
  hasSizeOverride : Bool
  /-- Whether a REX prefix selects 64-bit operands. -/
  isWide : Bool
  operands : List Meaning
deriving DecidableEq, Repr

def Form.decode? (f : Form) (bytes : List UInt8) : Option Decoding := do
  let fields ← Decoder.readFields? f.encoding bytes
  let operands ← f.operands.mapM (fields.operand? f)
  return ⟨fields.hasSizeOverride, fields.rex.w, operands⟩

end Asm64
