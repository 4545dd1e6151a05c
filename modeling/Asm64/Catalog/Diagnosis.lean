import Asm64.Catalog.Basic
import Asm64.RangeError

/-!
# Why no form matches

When no form of a catalog accepts an instruction, the mnemonic may be unknown, or a form may fit
but for the range of an integer operand, or nothing fits at all.
-/

namespace Asm64

/-- An operand that a form would accept if its value were smaller. -/
structure Form.NearMiss where
  value : Integer
  width : Width
  signed : Bool
deriving DecidableEq, Repr

/-- The integer in a value position, if that is what the pair is. -/
def Form.valuePair? (type : OperandType) (operand : Operand) : Option (Integer × Width) :=
  match type.valueWidth?, operand.value with
  | some width, .integer i => some (i, width)
  | _, _ => none

def Form.nearMiss? (f : Form) (operands : List Operand) : Option NearMiss :=
  let pairs := f.operands.zip operands
  if operands.length ≠ f.operands.length then none
  else if pairs.all fun (type, operand) =>
      (valuePair? type operand).isSome || type.accepts f.operandBits operand.value then
    (pairs.filterMap fun (type, operand) =>
      (valuePair? type operand).map fun (value, width) =>
        ⟨value, width, type.isRelative || OperandType.isSignExtended width f.operandBits⟩).getLast?
  else none

namespace Catalog

/-- The widest of the forms that only an integer out of range keeps from matching; the first one
where several are equally wide. -/
def widestNearMiss? (c : Catalog) (mnemonic : Text) (operands : List Operand) :
    Option Form.NearMiss :=
  c.foldl
    (fun widest entry =>
      if entry.form.hasMnemonic mnemonic then
        match entry.form.nearMiss? operands, widest with
        | some miss, none => some miss
        | some miss, some best => if best.width.bits < miss.width.bits then some miss else widest
        | none, _ => widest
      else widest)
    none

inductive Diagnosis where
  | unknownMnemonic
  | range (error : RangeError)
  | noForm
deriving DecidableEq, Repr

def diagnose (c : Catalog) (mnemonic : Text) (operands : List Operand) : Diagnosis :=
  if !c.hasMnemonic mnemonic then .unknownMnemonic
  else match c.widestNearMiss? mnemonic operands with
    | some miss => .range (.ofWidth mnemonic miss.value miss.width miss.signed)
    | none => .noForm

end Catalog

end Asm64
