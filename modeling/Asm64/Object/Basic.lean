import Asm64.Text.Quoted
import Asm64.Word

/-!
# Objects

An object is a piece of code with its labels and the relocations that are still open. Offsets
and sizes are signed 64-bit numbers, because objects may come from outside. Where several labels
have one name, which can happen after linking, a public one is preferred.
-/

namespace Asm64

/-- A named offset into the code of an object. Other objects can refer to public labels only. -/
structure Label where
  name : Text
  value : Int
  isPublic : Bool
deriving DecidableEq, Repr

/-- A field of the code that is to hold the distance from an offset to a label. -/
structure Relocation where
  label : Text
  /-- The offset of the field. -/
  offset : Int
  /-- The number of bytes of the field. -/
  size : Int
  /-- The offset that the distance is measured from: the end of the instruction. -/
  relativeTo : Int
  /-- Whether the label is not one of the object that the relocation comes from. It can then
  only be a public label. -/
  isExternal : Bool
deriving DecidableEq, Repr

structure Object where
  code : List UInt8
  labels : List Label
  relocations : List Relocation
deriving DecidableEq, Repr

namespace Object

def empty : Object := ⟨[], [], []⟩

/-- The label with a name: the first public one, or else the first one. -/
def label? (o : Object) (name : Text) : Option Label :=
  match o.labels.find? fun l => l.name = name ∧ l.isPublic with
  | some l => some l
  | none => o.labels.find? fun l => l.name = name

/-- The label that a relocation refers to. -/
def target? (o : Object) (r : Relocation) : Option Label :=
  match o.label? r.label with
  | some l => if r.isExternal ∧ !l.isPublic then none else some l
  | none => none

end Object

end Asm64
