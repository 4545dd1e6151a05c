import Asm64.Register

/-!
# Memory operands

A memory operand adds a base register, an index register times a scale, and a displacement. The
displacement is a number, or a label whose distance is filled in when the label's place is
known. `Memory.check` says whether 64-bit addressing can express the operand.
-/

namespace Asm64

inductive Scale where
  | one
  | two
  | four
  | eight
deriving DecidableEq, Repr

namespace Scale

def factor : Scale → Nat
  | one => 1
  | two => 2
  | four => 4
  | eight => 8

def ofFactor? (n : Nat) : Option Scale :=
  [one, two, four, eight].find? fun s => s.factor = n

/-- The two bits that stand for the scale in an instruction. -/
def code : Scale → UInt8
  | one => 0
  | two => 1
  | four => 2
  | eight => 3

end Scale

structure ScaledIndex where
  register : Register
  scale : Scale
deriving DecidableEq, Repr

inductive Displacement where
  | constant (value : Int)
  | label (name : Text)
deriving DecidableEq, Repr

namespace Displacement

/-- The number, or zero for a label. -/
def constantPart : Displacement → Int
  | constant value => value
  | label _ => 0

def label? : Displacement → Option Text
  | constant _ => none
  | label name => some name

end Displacement

structure Memory where
  base : Option Register
  index : Option ScaledIndex
  displacement : Displacement
  /-- The size suffix. Without one, the operand takes the size of the instruction. -/
  size : Option Width
deriving DecidableEq, Repr

namespace Memory

/-- Why 64-bit addressing cannot express a memory operand. -/
inductive Fault where
  | baseWidth (base : Register)
  | indexIsInstructionPointer
  | indexWidth (index : Register)
  | indexIsStackPointer
  | instructionPointerWithIndex
  | displacementRange (value : Int)
deriving DecidableEq, Repr

def Fault.message (f : Fault) : Text :=
  ascii "invalid memory operand: " ++ match f with
  | baseWidth base => ascii "base register " ++ base.name ++ ascii " is not a 64-bit register"
  | indexIsInstructionPointer => ascii "rip cannot be an index register"
  | indexWidth index => ascii "index register " ++ index.name ++ ascii " is not a 64-bit register"
  | indexIsStackPointer => ascii "rsp cannot be an index register"
  | instructionPointerWithIndex =>
    ascii "rip-relative addressing cannot use an index register"
  | displacementRange value =>
    ascii "displacement " ++ Text.decimalInt value ++ ascii " does not fit in 32 bits"

def baseFault? (m : Memory) : Option Fault :=
  match m.base with
  | some base => if base.width = .qword then none else some (.baseWidth base)
  | none => none

def indexFault? (m : Memory) : Option Fault :=
  match m.index with
  | some index =>
    if index.register = .instructionPointer then some .indexIsInstructionPointer
    else if index.register.width ≠ .qword then some (.indexWidth index.register)
    else if index.register = .rsp then some .indexIsStackPointer
    else if m.base = some .instructionPointer then some .instructionPointerWithIndex
    else none
  | none => none

def displacementFault? (m : Memory) : Option Fault :=
  let d := m.displacement.constantPart
  if d < -Int.pow 2 31 ∨ Int.pow 2 31 ≤ d then some (.displacementRange d) else none

def fault? (m : Memory) : Option Fault :=
  m.baseFault? <|> m.indexFault? <|> m.displacementFault?

def check (m : Memory) : Except Fault Unit :=
  match m.fault? with
  | some f => .error f
  | none => .ok ()

def isValid (m : Memory) : Bool := m.fault?.isNone

def render (m : Memory) : Text :=
  displacementText ++ ascii "[" ++ baseText ++ indexText ++ ascii "]" ++ sizeText
where
  displacementText : Text :=
    match m.displacement with
    | .label name => name
    | .constant value => if value = 0 then [] else Text.decimalInt value
  baseText : Text :=
    match m.base with
    | some base => base.name
    | none => []
  indexText : Text :=
    match m.index with
    | some index =>
      ascii ", " ++ index.register.name ++ ascii ", " ++ Text.decimal index.scale.factor
    | none => []
  sizeText : Text :=
    match m.size with
    | some size => [size.letter]
    | none => []

end Memory

end Asm64
