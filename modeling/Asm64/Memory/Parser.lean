import Asm64.Integer
import Asm64.Memory.Basic
import Asm64.Text.Blank

/-!
# Reading memory operands

A memory operand is written `disp[base, index, scale]size`, where everything but the brackets
may be left out from the right. Instead of standing in front, the displacement may follow the
base with a sign, as in `[rbp - 8]`. The widths of the registers are not looked at here.
-/

namespace Asm64.Memory

inductive Flaw where
  | missingBrackets
  | nestedBrackets
  | unknownSuffix (suffix : Text)
  | missingDisplacement
  | displacementRange (value : Integer)
  | registerDisplacement (name : Text)
  | invalidOffset (text : Text)
  | invalidDisplacement (text : Text)
  | tooManyComponents
  | displacementTwice
  | unknownRegister (error : Register.UnknownName)
  | invalidScale (text : Text)
  | unsupportedScale
deriving DecidableEq, Repr

def Flaw.message : Flaw → Text
  | missingBrackets => ascii "missing brackets"
  | nestedBrackets => ascii "nested brackets"
  | unknownSuffix suffix => ascii "unknown size suffix " ++ Text.quote suffix
  | missingDisplacement => ascii "missing displacement"
  | displacementRange value => ascii "displacement " ++ value.render ++ ascii " out of range"
  | registerDisplacement name =>
    ascii "register " ++ name ++
      ascii " used as a displacement: index registers are written [base, index, scale]"
  | invalidOffset text => ascii "invalid offset " ++ Text.quote text
  | invalidDisplacement text => ascii "invalid displacement " ++ Text.quote text
  | tooManyComponents => ascii "too many components"
  | displacementTwice => ascii "displacement given twice"
  | unknownRegister error => error.message
  | invalidScale text => ascii "invalid scale " ++ Text.quote text
  | unsupportedScale => ascii "scale must be 1, 2, 4, or 8"

/-- A text that is not a memory operand, without the white space around it. -/
structure ParseError where
  text : Text
  flaw : Flaw
deriving DecidableEq, Repr

def ParseError.message (e : ParseError) : Text :=
  ascii "invalid memory operand " ++ Text.quote e.text ++ ascii ": " ++ e.flaw.message

/-- A displacement in front of the brackets, or, with its sign, after the base. -/
def parseDisplacement (inside : Bool) (t : Text) : Except Flaw Displacement :=
  if t = [] ∨ t = [45] then .error .missingDisplacement
  else match Integer.parse? t with
    | some value =>
      match value.toInt? with
      | some v => .ok (.constant v)
      | none => .error (.displacementRange value)
    | none =>
      if Register.isName t then .error (.registerDisplacement t)
      else if Text.isIdentifier t then .ok (.label t)
      else if inside then .error (.invalidOffset t)
      else .error (.invalidDisplacement t)

def parseSize (suffix : Text) : Except Flaw (Option Width) :=
  match suffix with
  | [] => .ok none
  | [b] =>
    match Width.ofLetter? b with
    | some w => .ok (some w)
    | none => .error (.unknownSuffix suffix)
  | _ => .error (.unknownSuffix suffix)

def parseRegister (t : Text) : Except Flaw Register :=
  (Register.parse t).mapError .unknownRegister

def isSign (b : UInt8) : Bool := b = 43 ∨ b = 45

/-- Splits a base such as `rbp - 8` at its first sign. The offset keeps a minus sign. A sign in
front of everything does not count. -/
def splitOffset? (t : Text) : Option (Text × Text) :=
  match t.takeWhile (fun b => !isSign b), t.dropWhile (fun b => !isSign b) with
  | [], _ => none
  | _, [] => none
  | base, sign :: offset =>
    some (Text.trim base, if sign = 45 then 45 :: Text.trim offset else Text.trim offset)

/-- The base register and the displacement. `outer` is the displacement in front of the
brackets, if one was given. -/
def parseBase (outer : Option Displacement) (t : Text) :
    Except Flaw (Register × Displacement) :=
  match splitOffset? t with
  | none => do
    let base ← parseRegister t
    return (base, outer.getD (.constant 0))
  | some (baseText, offset) =>
    match outer with
    | some _ => .error .displacementTwice
    | none => do
      let displacement ← parseDisplacement true offset
      let base ← parseRegister baseText
      return (base, displacement)

def parseScale (t : Text) : Except Flaw Scale :=
  match Integer.parse? t with
  | some value =>
    if value.negative then .error (.invalidScale t)
    else match Scale.ofFactor? value.magnitude.toNat with
      | some scale => .ok scale
      | none => .error .unsupportedScale
  | none => .error (.invalidScale t)

/-- The index and scale after the base. The scale is one if it is left out. -/
def parseIndex : List Text → Except Flaw (Option ScaledIndex)
  | [] => .ok none
  | [index] => do
    let register ← parseRegister (Text.trim index)
    return some ⟨register, .one⟩
  | index :: scale :: _ => do
    let register ← parseRegister (Text.trim index)
    let scale ← parseScale (Text.trim scale)
    return some ⟨register, scale⟩

/-- Reads the three parts of an operand: the text in front of the brackets, between them, and
after them, each without white space around it. -/
def parseParts (front inner suffix : Text) : Except Flaw Memory := do
  if inner.any fun b => b = 91 ∨ b = 93 then .error .nestedBrackets
  let size ← parseSize suffix
  let outer ← if front = [] then pure none else some <$> parseDisplacement false front
  if inner = [] then
    return ⟨none, none, outer.getD (.constant 0), size⟩
  match Text.split 44 inner with
  | [] => .error .missingBrackets
  | base :: rest =>
    if 2 < rest.length then .error .tooManyComponents
    let (base, displacement) ← parseBase outer (Text.trim base)
    let index ← parseIndex rest
    return ⟨some base, index, displacement, size⟩

/-- The texts before the first `[`, up to the last `]`, and after it. -/
def splitBrackets? (t : Text) : Option (Text × Text × Text) :=
  match Text.cut 91 t with
  | none => none
  | some (front, rest) =>
    match Text.cutLast 93 rest with
    | none => none
    | some (inner, suffix) => some (front, inner, suffix)

def parseTrimmed (t : Text) : Except Flaw Memory :=
  match splitBrackets? t with
  | none => .error .missingBrackets
  | some (front, inner, suffix) =>
    parseParts (Text.trim front) (Text.trim inner) (Text.trim suffix)

def parse (t : Text) : Except ParseError Memory :=
  (parseTrimmed (Text.trim t)).mapError fun flaw => ⟨Text.trim t, flaw⟩

end Asm64.Memory
