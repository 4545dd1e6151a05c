import Asm64.Encoding
import Asm64.OperandType

/-!
# Instruction forms

A form is a mnemonic with the types of its operands and an encoding. It is written
`MNEMONIC type type, encoding`. A form is well formed when every operand has a place in the
encoding and every place has an operand.
-/

namespace Asm64

structure Form where
  mnemonic : Text
  operands : List OperandType
  encoding : Encoding
deriving DecidableEq, Repr

namespace Form

def maxOperands : Nat := 2

inductive Mismatch where
  | registerFieldOperands
  | digitOperands (digit : Fin 8)
  | noModRM
  | modifierOperand (width : Width)
  | noRegisterField
  | noValueField
  | valueOperands
  | valueWidth (type : OperandType) (width : Width)
  | offsetKind
deriving DecidableEq, Repr

def Mismatch.message : Mismatch → Text
  | registerFieldOperands =>
    ascii "/r needs one register and one register or memory operand"
  | digitOperands digit =>
    ascii "/" ++ Text.decimal digit.val ++ ascii " needs one register or memory operand"
  | noModRM => ascii "register or memory operand with no ModR/M byte"
  | modifierOperand width =>
    ascii "+r" ++ [width.letter] ++ ascii " needs one " ++ Text.decimal width.bits ++
      ascii "-bit register operand"
  | noRegisterField => ascii "register operand with no ModR/M byte or register modifier"
  | noValueField => ascii "immediate operand with no immediate encoding"
  | valueOperands => ascii "immediate encoding needs one immediate operand"
  | valueWidth type width =>
    ascii "operand " ++ type.name ++ ascii " does not match " ++ Text.decimal width.bits ++
      ascii "-bit immediate"
  | offsetKind => ascii "code offsets must use rel operands and cb, cw, cd, or cq"

inductive Flaw where
  | missingEncoding
  | missingMnemonic
  | badMnemonic (mnemonic : Text)
  | tooManyOperands
  | unknownType (name : Text)
  | encoding (error : Encoding.ParseError)
  | mismatch (reason : Mismatch)
deriving DecidableEq, Repr

def Flaw.message : Flaw → Text
  | missingEncoding => ascii "missing encoding"
  | missingMnemonic => ascii "missing mnemonic"
  | badMnemonic mnemonic => ascii "bad mnemonic " ++ Text.quote mnemonic
  | tooManyOperands => ascii "too many operands"
  | unknownType name => ascii "unknown operand type " ++ Text.quote name
  | encoding error => error.message
  | .mismatch reason => reason.message

structure ParseError where
  text : Text
  flaw : Flaw
deriving DecidableEq, Repr

def ParseError.message (e : ParseError) : Text :=
  ascii "invalid instruction " ++ Text.quote e.text ++ ascii ": " ++ e.flaw.message

def registers (f : Form) : List OperandType := f.operands.filter (·.isRegister)

def registersOrMemory (f : Form) : List OperandType := f.operands.filter (·.isRegisterOrMemory)

def values (f : Form) : List OperandType := f.operands.filter (·.isValue)

/-- Whether the operands that the ModR/M byte holds are there, and no others. -/
def modRMMismatch? (f : Form) : Option Mismatch :=
  match f.encoding.modRM with
  | .register =>
    if f.registers.length ≠ 1 ∨ f.registersOrMemory.length ≠ 1 then some .registerFieldOperands
    else none
  | .digit value =>
    if f.registers.length ≠ 0 ∨ f.registersOrMemory.length ≠ 1 then some (.digitOperands value)
    else none
  | .none => if f.registersOrMemory.length ≠ 0 then some .noModRM else none

def modifierMismatch? (f : Form) : Option Mismatch :=
  match f.encoding.registerModifier with
  | some width =>
    if f.registers.map (·.bits) ≠ [width.bits] then some (.modifierOperand width) else none
  | none =>
    if f.encoding.modRM = .none ∧ f.registers.length ≠ 0 then some .noRegisterField else none

def valueMismatch? (f : Form) : Option Mismatch :=
  match f.encoding.value, f.values with
  | none, [] => none
  | none, _ => some .noValueField
  | some field, [type] =>
    if type.valueBits ≠ field.width.bits then some (.valueWidth type field.width)
    else if type.isRelative ≠ field.isOffset then some .offsetKind
    else none
  | some _, _ => some .valueOperands

def mismatch? (f : Form) : Option Mismatch :=
  f.modRMMismatch? <|> f.modifierMismatch? <|> f.valueMismatch?

def isMnemonic (t : Text) : Bool := Text.isIdentifier t && t.map Text.upperByte == t

def parseTypes (names : List Text) : Except Flaw (List OperandType) :=
  names.mapM fun name =>
    match OperandType.ofName? name with
    | some type => .ok type
    | none => .error (.unknownType name)

/-- The mnemonic and operand types in front of the encoding. -/
def parseExpression (t : Text) : Except Flaw (Text × List OperandType) :=
  match Text.fields t with
  | [] => .error .missingMnemonic
  | mnemonic :: names => do
    if !isMnemonic mnemonic then .error (.badMnemonic mnemonic)
    if maxOperands < names.length then .error .tooManyOperands
    let types ← parseTypes names
    return (mnemonic, types)

def parseWhole (t : Text) : Except Flaw Form :=
  match Text.cut 44 t with
  | none => .error .missingEncoding
  | some (expression, encodingText) => do
    let (mnemonic, operands) ← parseExpression expression
    let encoding ← (Encoding.parse (Text.trim encodingText)).mapError .encoding
    let form : Form := ⟨mnemonic, operands, encoding⟩
    match form.mismatch? with
    | some mismatch => .error (.mismatch mismatch)
    | none => return form

def parse (t : Text) : Except ParseError Form := (parseWhole t).mapError fun flaw => ⟨t, flaw⟩

/-- A form whose operand types are taken as they are, without asking whether they fit the
encoding. A name that is no type gives the type with number zero. -/
def parseUnchecked (t : Text) : Except Encoding.ParseError Form :=
  let (expression, encodingText) := (Text.cut 44 t).getD (t, [])
  match Text.fields expression with
  | [] => (Encoding.parse (Text.trim encodingText)).map fun encoding => ⟨[], [], encoding⟩
  | mnemonic :: names =>
    (Encoding.parse (Text.trim encodingText)).map fun encoding =>
      ⟨mnemonic, names.map fun name => (OperandType.ofName? name).getD (.other 0), encoding⟩

def renderExpression (f : Form) : Text :=
  Text.join [32] (f.mnemonic :: f.operands.map (·.name))

def render (f : Form) : Text := f.renderExpression ++ ascii ", " ++ f.encoding.render

/-- The operand size of the form: the largest size among its operands, or, if none of them has a
size, the default operand size if it was given. -/
def operandBits (f : Form) : Nat :=
  let bits := (f.operands.map (·.bits)).foldl max 0
  if bits = 0 ∧ f.encoding.operandSize ≠ none then f.encoding.defaultBits else bits

def hasMnemonic (f : Form) (mnemonic : Text) : Bool := Text.equalFold f.mnemonic mnemonic

def acceptsOperands (f : Form) (operands : List Operand) : Bool :=
  operands.length == f.operands.length &&
    (f.operands.zip operands).all fun (type, operand) =>
      type.accepts f.operandBits operand.value

def accepts (f : Form) (mnemonic : Text) (operands : List Operand) : Bool :=
  f.hasMnemonic mnemonic && f.acceptsOperands operands

end Form

end Asm64
