import Asm64.Text.Quoted
import Asm64.Word

/-!
# Registers

The sixteen general purpose registers are numbered 0 to 15 and can be used at each of the four
widths. The second bytes of the first four have names of their own, which share the register
numbers 4 to 7 of the low bytes and are told apart by the absence of a REX prefix. The
instruction pointer can only be the base of a memory operand.
-/

namespace Asm64

inductive Register where
  | general (width : Width) (number : Fin 16)
  | highByte (of : Fin 4)
  | instructionPointer
deriving DecidableEq, Repr

namespace Register

/-- There are registers, so a literal can be the number of one. -/
instance neZeroCount : @NeZero Nat Zero.ofOfNat0 16 := ⟨by decide⟩

def rsp : Register := general .qword 4

/-- The names of the general purpose registers at a width, by number. -/
def names : Width → List String
  | .qword => ["rax", "rcx", "rdx", "rbx", "rsp", "rbp", "rsi", "rdi",
      "r8", "r9", "r10", "r11", "r12", "r13", "r14", "r15"]
  | .dword => ["eax", "ecx", "edx", "ebx", "esp", "ebp", "esi", "edi",
      "r8d", "r9d", "r10d", "r11d", "r12d", "r13d", "r14d", "r15d"]
  | .word => ["ax", "cx", "dx", "bx", "sp", "bp", "si", "di",
      "r8w", "r9w", "r10w", "r11w", "r12w", "r13w", "r14w", "r15w"]
  | .byte => ["al", "cl", "dl", "bl", "spl", "bpl", "sil", "dil",
      "r8b", "r9b", "r10b", "r11b", "r12b", "r13b", "r14b", "r15b"]

def name : Register → Text
  | general width number => ascii ((names width).getD number "")
  | highByte of => ascii (["ah", "ch", "dh", "bh"].getD of "")
  | instructionPointer => ascii "rip"

def all : List Register :=
  ([.qword, .dword, .word, .byte].flatMap fun width => (List.finRange 16).map (general width)) ++
    (List.finRange 4).map highByte ++ [instructionPointer]

/-- Second names of the upper byte registers. -/
def aliases : List (Text × Register) :=
  [("r8l", general .byte 8), ("r9l", general .byte 9), ("r10l", general .byte 10),
    ("r11l", general .byte 11), ("r12l", general .byte 12), ("r13l", general .byte 13),
    ("r14l", general .byte 14), ("r15l", general .byte 15)].map fun (name, r) => (ascii name, r)

def namesAndAliases : List (Text × Register) := all.map (fun r => (r.name, r)) ++ aliases

def ofName? (t : Text) : Option Register :=
  (namesAndAliases.find? fun entry => entry.1 == t).map (·.2)

def isName (t : Text) : Bool := (ofName? t).isSome

def width : Register → Width
  | general width _ => width
  | highByte _ => .byte
  | instructionPointer => .qword

def bits (r : Register) : Nat := r.width.bits

def isGeneral : Register → Bool
  | instructionPointer => false
  | _ => true

/-- The 64-bit register whose storage the register occupies. -/
def parent : Register → Register
  | general _ number => general .qword number
  | highByte of => general .qword (of.castLE (by decide))
  | instructionPointer => instructionPointer

def overlaps (r s : Register) : Bool := r.parent = s.parent

def number : Register → Nat
  | general _ number => number
  | highByte of => 4 + of
  | instructionPointer => 0

def isHighByte : Register → Bool
  | highByte _ => true
  | _ => false

def needsRex : Register → Bool
  | general .byte number => 4 ≤ number.val
  | general _ number => 8 ≤ number.val
  | _ => false

/-- The two parts of a register number: the extension bit, which a REX prefix holds, and the
three bits in the instruction itself. -/
structure Code where
  extension : Bool
  low : UInt8
deriving DecidableEq, Repr

def code (r : Register) : Code := ⟨8 ≤ r.number, UInt8.ofNat (r.number % 8)⟩

/-- The code of a general purpose register used at its own width. -/
def codeAt? (r : Register) (bits : Nat) : Option Code :=
  if r.isGeneral ∧ r.bits = bits then some r.code else none

structure UnknownName where
  name : Text
deriving DecidableEq, Repr

def UnknownName.message (e : UnknownName) : Text :=
  ascii "unknown register " ++ Text.quote e.name

def parse (t : Text) : Except UnknownName Register :=
  match ofName? t with
  | some r => .ok r
  | none => .error ⟨t⟩

def kindName (r : Register) : Text :=
  if r.isGeneral then ascii "general purpose register" else ascii "instruction pointer"

end Register

end Asm64
