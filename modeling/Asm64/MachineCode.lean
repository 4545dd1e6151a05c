import Asm64.Text.Basic
import Asm64.Word

/-!
# Machine code of one instruction

An instruction is built field by field and emitted in the order that the processor reads:
legacy prefix, REX prefix, opcode, ModR/M, SIB, displacement, immediate. A prefix is present
when its byte is not zero; the ModR/M and SIB bytes are present when they are switched on.
-/

namespace Asm64

/-- Replaces the bits of `mask` by those of `value`, which is shifted into their place. -/
def replaceBits (byte mask value shift : UInt8) : UInt8 :=
  (byte &&& ~~~mask) ||| ((value <<< shift) &&& mask)

/-- A REX prefix: `0100WRXB`. -/
structure Rex where
  byte : UInt8
deriving DecidableEq, Repr

namespace Rex

def bit (r : Rex) (position : UInt8) : Bool := (r.byte >>> position) &&& 1 = 1

def on (r : Rex) : Bool := r.bit 6
def w (r : Rex) : Bool := r.bit 3
def r (r : Rex) : Bool := r.bit 2
def x (r : Rex) : Bool := r.bit 1
def b (r : Rex) : Bool := r.bit 0

def setOn (r : Rex) : Rex := ⟨r.byte ||| 0x40⟩

def bitOf (value : Bool) : UInt8 := if value then 1 else 0

def setW (r : Rex) (value : Bool) : Rex := ⟨replaceBits r.byte 0x08 (bitOf value) 3⟩
def setR (r : Rex) (value : Bool) : Rex := ⟨replaceBits r.byte 0x04 (bitOf value) 2⟩
def setX (r : Rex) (value : Bool) : Rex := ⟨replaceBits r.byte 0x02 (bitOf value) 1⟩
def setB (r : Rex) (value : Bool) : Rex := ⟨replaceBits r.byte 0x01 (bitOf value) 0⟩

def render (r : Rex) : Text :=
  ascii "0100" ++ [mark r.w 87, mark r.r 82, mark r.x 88, mark r.b 66]
where
  mark (value : Bool) (letter : UInt8) : UInt8 := if value then letter else 48

end Rex

/-- A ModR/M byte: two bits of mod, three of reg and three of r/m. -/
structure ModRM where
  byte : UInt8
deriving DecidableEq, Repr

namespace ModRM

/-- The memory operand has no displacement. -/
def modPlain : UInt8 := 0
/-- The memory operand has a displacement of one byte. -/
def modByte : UInt8 := 1
/-- The memory operand has a displacement of four bytes. -/
def modDword : UInt8 := 2
/-- The operand is a register. -/
def modRegister : UInt8 := 3

/-- A SIB byte follows. -/
def rmSib : UInt8 := 4
/-- With `modPlain`: a displacement from the instruction pointer. -/
def rmRelative : UInt8 := 5

def mod (m : ModRM) : UInt8 := (m.byte &&& 0xC0) >>> 6
def reg (m : ModRM) : UInt8 := (m.byte &&& 0x38) >>> 3
def rm (m : ModRM) : UInt8 := m.byte &&& 0x07

def setMod (m : ModRM) (value : UInt8) : ModRM := ⟨replaceBits m.byte 0xC0 value 6⟩
def setReg (m : ModRM) (value : UInt8) : ModRM := ⟨replaceBits m.byte 0x38 value 3⟩
def setRm (m : ModRM) (value : UInt8) : ModRM := ⟨replaceBits m.byte 0x07 value 0⟩

def render (m : ModRM) : Text :=
  ascii "\x7bMod: " ++ Text.binary 2 m.mod.toNat ++ ascii ", Reg: " ++ Text.binary 3 m.reg.toNat ++
    ascii ", R/M: " ++ Text.binary 3 m.rm.toNat ++ ascii "\x7d"

end ModRM

/-- A SIB byte: two bits of scale, three of index and three of base. -/
structure Sib where
  byte : UInt8
deriving DecidableEq, Repr

namespace Sib

def indexNone : UInt8 := 4
def baseStackPointer : UInt8 := 4
/-- With `ModRM.modPlain`: no base. -/
def baseNone : UInt8 := 5

def scale (s : Sib) : UInt8 := (s.byte &&& 0xC0) >>> 6
def index (s : Sib) : UInt8 := (s.byte &&& 0x38) >>> 3
def base (s : Sib) : UInt8 := s.byte &&& 0x07

def setScale (s : Sib) (value : UInt8) : Sib := ⟨replaceBits s.byte 0xC0 value 6⟩
def setIndex (s : Sib) (value : UInt8) : Sib := ⟨replaceBits s.byte 0x38 value 3⟩
def setBase (s : Sib) (value : UInt8) : Sib := ⟨replaceBits s.byte 0x07 value 0⟩

def render (s : Sib) : Text :=
  ascii "\x7bScale: " ++ Text.binary 2 s.scale.toNat ++ ascii ", Index: " ++
    Text.binary 3 s.index.toNat ++ ascii ", Base: " ++ Text.binary 3 s.base.toNat ++ ascii "\x7d"

end Sib

def legacyPrefixName (byte : UInt8) : Text :=
  match byte with
  | 0xF0 => ascii "lock"
  | 0xF2 => ascii "repnz/repne"
  | 0xF3 => ascii "rep/repe/repz"
  | 0x66 => ascii "data16"
  | 0x67 => ascii "addr32"
  | _ => ascii "Prefix(0x" ++ Text.hex 2 byte.toNat ++ ascii ")"

structure MachineCode where
  /-- A legacy prefix byte, or zero. -/
  legacy : UInt8
  rex : Rex
  opcode : List UInt8
  modRM : ModRM
  usesModRM : Bool
  sib : Sib
  usesSib : Bool
  displacement : List UInt8
  immediate : List UInt8
deriving DecidableEq, Repr

namespace MachineCode

def empty : MachineCode := ⟨0, ⟨0⟩, [], ⟨0⟩, false, ⟨0⟩, false, [], []⟩

def operandSizeOverride : UInt8 := 0x66

/-- The bytes of a field that is only there when it is needed. -/
def optionalByte (present : Bool) (b : UInt8) : List UInt8 := if present then [b] else []

/-- The bytes before the displacement. -/
def head (c : MachineCode) : List UInt8 :=
  optionalByte (c.legacy != 0) c.legacy ++ optionalByte (c.rex.byte != 0) c.rex.byte ++ c.opcode ++
    optionalByte c.usesModRM c.modRM.byte ++ optionalByte c.usesSib c.sib.byte

def bytes (c : MachineCode) : List UInt8 := c.head ++ c.displacement ++ c.immediate

def displacementOffset (c : MachineCode) : Nat := c.head.length

def immediateOffset (c : MachineCode) : Nat := c.displacementOffset + c.displacement.length

def length (c : MachineCode) : Nat := c.immediateOffset + c.immediate.length

theorem length_bytes (c : MachineCode) : c.bytes.length = c.length := by
  simp [bytes, length, immediateOffset, displacementOffset, Nat.add_assoc]

/-- A field that an instruction cannot have. -/
inductive Fault where
  | opcodeLength (length : Nat)
  | displacementSize (size : Int)
  | immediateSize (size : Int)
  | scaleFactor (factor : Nat)
deriving DecidableEq, Repr

def Fault.message : Fault → Text
  | opcodeLength length => ascii "invalid opcode length " ++ Text.decimal length
  | displacementSize size => ascii "invalid displacement size " ++ Text.decimalInt size
  | immediateSize size => ascii "invalid immediate size " ++ Text.decimalInt size
  | scaleFactor factor => ascii "invalid SIB scale " ++ Text.decimal factor

/-- Replaces the opcode, which has one to three bytes. -/
def setOpcode (c : MachineCode) (opcode : List UInt8) : Except Fault MachineCode :=
  if opcode.length = 0 ∨ 3 < opcode.length then .error (.opcodeLength opcode.length)
  else .ok { c with opcode }

def putDisplacement (c : MachineCode) (size : Nat) (value : Int) : MachineCode :=
  { c with displacement := littleEndian size (twosComplement value) }

/-- Replaces the displacement, which has one or four bytes. -/
def setDisplacement (c : MachineCode) (size : Int) (value : Int) : Except Fault MachineCode :=
  if size = 1 ∨ size = 4 then .ok (c.putDisplacement size.toNat value)
  else .error (.displacementSize size)

def putImmediate (c : MachineCode) (size : Nat) (value : UInt64) : MachineCode :=
  { c with immediate := littleEndian size value.toNat }

/-- Replaces the immediate, which has one, two, four or eight bytes. -/
def setImmediate (c : MachineCode) (size : Int) (value : UInt64) : Except Fault MachineCode :=
  if size = 1 ∨ size = 2 ∨ size = 4 ∨ size = 8 then .ok (c.putImmediate size.toNat value)
  else .error (.immediateSize size)

/-- Sets the scale from the factor it stands for. No factor means one. -/
def setScaleFactor (c : MachineCode) (factor : Nat) : Except Fault MachineCode :=
  match factor with
  | 0 | 1 => .ok { c with sib := c.sib.setScale 0 }
  | 2 => .ok { c with sib := c.sib.setScale 1 }
  | 4 => .ok { c with sib := c.sib.setScale 2 }
  | 8 => .ok { c with sib := c.sib.setScale 3 }
  | _ => .error (.scaleFactor factor)

def render (c : MachineCode) : Text :=
  ascii "\x7b" ++ Text.join (ascii ", ") parts ++ ascii "\x7d"
where
  part (present : Bool) (name : String) (content : Text) : List Text :=
    if present then [ascii name ++ ascii ": " ++ content] else []
  bracketed (bytes : List UInt8) : Text := ascii "[" ++ Text.hexBytes bytes ++ ascii "]"
  parts : List Text :=
    part (c.legacy != 0) "Prefix" (legacyPrefixName c.legacy) ++
    part (c.rex.byte != 0) "REX" c.rex.render ++
    part (!c.opcode.isEmpty) "Opcode" (bracketed c.opcode) ++
    part c.usesModRM "ModR/M" c.modRM.render ++
    part c.usesSib "SIB" c.sib.render ++
    part (!c.displacement.isEmpty) "Displacement" (bracketed c.displacement) ++
    part (!c.immediate.isEmpty) "Immediate" (bracketed c.immediate)

end MachineCode

end Asm64
