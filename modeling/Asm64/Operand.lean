import Asm64.Memory.Parser

/-!
# Operands

An operand of an instruction is a register, a memory operand, an integer or a label. Its text
alone decides which.
-/

namespace Asm64

inductive OperandValue where
  | register (register : Register)
  | memory (memory : Memory)
  | integer (value : Integer)
  | label (name : Text)
deriving DecidableEq, Repr

structure Operand where
  text : Text
  value : OperandValue
deriving DecidableEq, Repr

namespace Operand

inductive ParseError where
  | memory (error : Memory.ParseError)
  | unrecognized (text : Text)
deriving DecidableEq, Repr

def ParseError.message : ParseError → Text
  | memory error => error.message
  | unrecognized text => ascii "invalid operand " ++ Text.quote text

def hasBracket (t : Text) : Bool := t.any fun b => b = 91 ∨ b = 93

def parseValue (t : Text) : Except ParseError OperandValue :=
  match Register.ofName? t with
  | some r => .ok (.register r)
  | none =>
    if hasBracket t then
      match Memory.parse t with
      | .ok m => .ok (.memory m)
      | .error e => .error (.memory e)
    else match Integer.parse? t with
      | some i => .ok (.integer i)
      | none => if Text.isIdentifier t then .ok (.label t) else .error (.unrecognized t)

/-- Reads an operand. White space around it is not part of its text. -/
def parse (t : Text) : Except ParseError Operand :=
  match parseValue (Text.trim t) with
  | .ok value => .ok ⟨Text.trim t, value⟩
  | .error e => .error e

end Operand

end Asm64
