import Asm64.Integer
import Asm64.Text.Blank
import Asm64.Text.LetterCase
import Asm64.Text.Quoted

/-!
# Encodings

The encoding of an instruction form lists its opcode bytes and then where the operands go. It
is written as clauses with white space between them:

* an opcode byte, as two upper case hexadecimal digits;
* `/r` for a ModR/M byte whose reg field holds a register operand, or `/0` to `/7` for one whose
  reg field holds the digit;
* `ib`, `iw`, `id`, `iq` for an immediate and `cb`, `cw`, `cd`, `cq` for a code offset;
* `+rb`, `+rw`, `+rd`, `+rq` for a register added to the last opcode byte, also directly after it;
* `ob`, `ow`, `od`, `oq` for the default operand size, which is 32 bits if not given.
-/

namespace Asm64

/-- What the reg field of the ModR/M byte holds, if there is such a byte. -/
inductive ModRMRule where
  | none
  | register
  | digit (value : Fin 8)
deriving DecidableEq, Repr

/-- There are digits, so a literal can be one. -/
instance ModRMRule.neZeroDigits : @NeZero Nat Zero.ofOfNat0 8 := ⟨by decide⟩

/-- The field after the operands for an immediate or, if `isOffset`, a code offset. -/
structure ValueField where
  width : Width
  isOffset : Bool
deriving DecidableEq, Repr

structure Encoding where
  opcode : List UInt8
  /-- The width of the register that is added to the last opcode byte. -/
  registerModifier : Option Width
  modRM : ModRMRule
  value : Option ValueField
  /-- The default operand size, if it was given. -/
  operandSize : Option Width
deriving DecidableEq, Repr

namespace Encoding

def empty : Encoding := ⟨[], none, .none, none, none⟩

def defaultBits (e : Encoding) : Nat :=
  match e.operandSize with
  | some width => width.bits
  | none => 32

def valueBits (e : Encoding) : Nat :=
  match e.value with
  | some field => field.width.bits
  | none => 0

inductive ClauseFlaw where
  | notUpperHex
  | notHex (text : Text)
  | opcodeAfterOperands
  | repeatedModRM
  | repeatedValue
  | repeatedModifier
  | repeatedSize
deriving DecidableEq, Repr

def ClauseFlaw.message : ClauseFlaw → Text
  | notUpperHex => ascii "opcode bytes must be two upper case hex digits"
  | notHex text => ascii "strconv.ParseUint: parsing " ++ Text.quote text ++ ascii ": invalid syntax"
  | opcodeAfterOperands => ascii "opcode byte after operand clauses"
  | repeatedModRM => ascii "multiple ModR/M clauses"
  | repeatedValue => ascii "multiple immediates"
  | repeatedModifier => ascii "multiple register modifiers"
  | repeatedSize => ascii "multiple operand sizes"

inductive ParseError where
  | clause (text : Text) (flaw : ClauseFlaw)
  | noOpcode (text : Text)
  | opcodeLength (text : Text) (count : Nat)
  | modifierWithModRM (text : Text)
  | operandSize (text : Text) (bits : Nat)
deriving DecidableEq, Repr

def ParseError.message : ParseError → Text
  | .clause text flaw => ascii "invalid encoding clause " ++ text ++ ascii ": " ++ flaw.message
  | noOpcode text => whole text ++ ascii "no opcode"
  | opcodeLength text count => whole text ++ Text.decimal count ++ ascii " opcode bytes"
  | modifierWithModRM text => whole text ++ ascii "register modifier with ModR/M byte"
  | operandSize text bits =>
    whole text ++ ascii "default operand size " ++ Text.decimal bits ++
      ascii " is smaller than 32 bits"
where
  whole (text : Text) : Text := ascii "invalid encoding " ++ Text.quote text ++ ascii ": "

/-- Adds an opcode byte. Opcode bytes come before everything that places an operand. -/
def addOpcode (e : Encoding) (t : Text) : Except ClauseFlaw Encoding :=
  if t.length ≠ 2 ∨ Text.isUpperCase t = false then .error .notUpperHex
  else match Integer.readNumeral? 16 t with
    | none => .error (.notHex t)
    | some n =>
      if e.modRM ≠ .none ∨ e.value ≠ none ∨ e.registerModifier ≠ none then
        .error .opcodeAfterOperands
      else .ok { e with opcode := e.opcode ++ [UInt8.ofNat n] }

def addModRM (e : Encoding) (rule : ModRMRule) : Except ClauseFlaw Encoding :=
  if e.modRM ≠ .none then .error .repeatedModRM else .ok { e with modRM := rule }

def addValue (e : Encoding) (field : ValueField) : Except ClauseFlaw Encoding :=
  if e.value ≠ none then .error .repeatedValue else .ok { e with value := some field }

def addModifier (e : Encoding) (width : Width) : Except ClauseFlaw Encoding :=
  if e.registerModifier ≠ none then .error .repeatedModifier
  else .ok { e with registerModifier := some width }

def addSize (e : Encoding) (width : Width) : Except ClauseFlaw Encoding :=
  if e.operandSize ≠ none then .error .repeatedSize else .ok { e with operandSize := some width }

/-- Adds a clause that is not an opcode byte with a register directly after it. -/
def addPlainClause (e : Encoding) (t : Text) : Except ClauseFlaw Encoding :=
  match t with
  | [47, b] =>
    if b = 114 then e.addModRM .register
    else if h : 48 ≤ b.toNat ∧ b.toNat ≤ 55 then
      e.addModRM (.digit ⟨b.toNat - 48, by omega⟩)
    else e.addOpcode t
  | [kind, size] =>
    match Width.ofLetter? size with
    | some width =>
      if kind = 105 then e.addValue ⟨width, false⟩
      else if kind = 99 then e.addValue ⟨width, true⟩
      else if kind = 111 then e.addSize width
      else e.addOpcode t
    | none => e.addOpcode t
  | [43, 114, size] =>
    match Width.ofLetter? size with
    | some width => e.addModifier width
    | none => e.addOpcode t
  | _ => e.addOpcode t

/-- Adds one clause. A register directly after an opcode byte is a clause of its own. -/
def addClause (e : Encoding) (t : Text) : Except ParseError Encoding :=
  match Text.cut 43 t with
  | some (first :: opcode, register) =>
    match e.addOpcode (first :: opcode) with
    | .error flaw => .error (.clause t flaw)
    | .ok e =>
      (e.addPlainClause (43 :: register)).mapError (.clause (43 :: register))
  | _ => (e.addPlainClause t).mapError (.clause t)

/-- Checks that the clauses of an encoding make sense together. -/
def checkWhole (text : Text) (e : Encoding) : Except ParseError Encoding :=
  if e.opcode = [] then .error (.noOpcode text)
  else if 3 < e.opcode.length then .error (.opcodeLength text e.opcode.length)
  else if e.registerModifier ≠ none ∧ e.modRM ≠ .none then .error (.modifierWithModRM text)
  else if e.defaultBits < 32 then .error (.operandSize text e.defaultBits)
  else .ok e

def parse (t : Text) : Except ParseError Encoding := do
  let e ← (Text.fields t).foldlM addClause empty
  checkWhole t e

def clauses (e : Encoding) : List Text :=
  e.opcode.map (fun b => (Text.hexByte b).map Text.upperByte) ++
    (match e.registerModifier with
      | some width => [[43, 114, width.letter]]
      | none => []) ++
    (match e.modRM with
      | .none => []
      | .register => [ascii "/r"]
      | .digit value => [[47, UInt8.ofNat (48 + value.val)]]) ++
    (match e.value with
      | some field => [[if field.isOffset then 99 else 105, field.width.letter]]
      | none => []) ++
    (match e.operandSize with
      | some width => [[111, width.letter]]
      | none => [])

def render (e : Encoding) : Text := Text.join [32] e.clauses

end Encoding

end Asm64
