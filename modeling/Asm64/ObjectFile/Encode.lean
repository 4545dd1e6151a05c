import Asm64.ObjectFile.Basic

/-!
# Writing object files

An object is written only if it has a place in the format. A label or relocation with a bad
offset or size ends the search for faults in its section. A bad name does not, and the last fault
of a section is the one that is reported.
-/

namespace Asm64.ObjectFile

inductive Fault where
  | labelOffset (name : Text) (value : Int)
  | relocationSize (label : Text) (size : Int)
  | relocationOffset (label : Text) (offset : Int)
  | name (text : Text)
  /-- A section whose length cannot be written in four bytes. -/
  | sectionLength (length : Nat)
deriving DecidableEq, Repr

def Fault.message : Fault → Text
  | labelOffset label value =>
    ascii "label " ++ Text.quote label ++ ascii " has invalid offset " ++ Text.decimalInt value
  | relocationSize label size =>
    ascii "reference to " ++ Text.quote label ++ ascii " has invalid size " ++
      Text.decimalInt size
  | relocationOffset label offset =>
    ascii "reference to " ++ Text.quote label ++ ascii " has invalid offset " ++
      Text.decimalInt offset
  | .name text => ascii "invalid label name " ++ Text.quote text
  | sectionLength length =>
    ascii "cryptobyte: pending child length " ++ Text.decimal length ++
      ascii " exceeds 4-byte length prefix"

inductive EncodeError where
  | codeLength (length : Nat)
  | fault (reason : Fault)
deriving DecidableEq, Repr

def EncodeError.message : EncodeError → Text
  | codeLength length =>
    ascii "objfile: code is too large: " ++ Text.decimal length ++ ascii " bytes"
  | fault reason => ascii "objfile: failed to encode object: " ++ reason.message

/-- Whether a name has from one to 65535 bytes. -/
def isWritableName (name : Text) : Bool := 0 < name.length ∧ name.length < Nat.pow 2 16

def labelFault? (codeLength : Nat) (l : Label) : Option Fault :=
  if l.value < 0 ∨ codeLength < l.value then some (.labelOffset l.name l.value) else none

def relocationFault? (codeLength : Nat) (r : Relocation) : Option Fault :=
  if !isFieldSize r.size then some (.relocationSize r.label r.size)
  else if r.offset < 0 ∨ codeLength < wrap64 (r.offset + r.size) ∨ r.relativeTo < 0 ∨
      Int.pow 2 32 ≤ r.relativeTo then
    some (.relocationOffset r.label r.offset)
  else none

/-- The fault that is reported for a section. `fault?` finds the faults after which the rest is
not looked at, and `nameOf` gives the names. `last` is the last fault so far. -/
def sectionFault? {α : Type} (fault? : α → Option Fault) (nameOf : α → Text)
    (last : Option Fault) : List α → Option Fault
  | [] => last
  | x :: rest =>
    match fault? x with
    | some fault => some fault
    | none =>
      sectionFault? fault? nameOf
        (if isWritableName (nameOf x) then last else some (.name (nameOf x))) rest

def flagByte (flag : Bool) : UInt8 := if flag then 1 else 0

def nameBytes (name : Text) : List UInt8 := bigEndian 2 name.length ++ name

def labelBytes (l : Label) : List UInt8 :=
  nameBytes l.name ++ bigEndian 4 l.value.toNat ++ [flagByte l.isPublic]

def relocationBytes (r : Relocation) : List UInt8 :=
  nameBytes r.label ++ bigEndian 4 r.offset.toNat ++ [UInt8.ofNat r.size.toNat] ++
    bigEndian 4 r.relativeTo.toNat ++ [flagByte r.isExternal]

def sectionBytes (content : List UInt8) : Except Fault (List UInt8) :=
  if content.length < Nat.pow 2 32 then .ok (bigEndian 4 content.length ++ content)
  else .error (.sectionLength content.length)

def labelSection (o : Object) : Except Fault (List UInt8) :=
  match sectionFault? (labelFault? o.code.length) (·.name) none o.labels with
  | some fault => .error fault
  | none => sectionBytes (o.labels.flatMap labelBytes)

def relocationSection (o : Object) : Except Fault (List UInt8) :=
  match sectionFault? (relocationFault? o.code.length) (·.label) none o.relocations with
  | some fault => .error fault
  | none => sectionBytes (o.relocations.flatMap relocationBytes)

/-- All that the digest covers. -/
def body (o : Object) : Except Fault (List UInt8) := do
  let code ← sectionBytes o.code
  let labels ← labelSection o
  let relocations ← relocationSection o
  return magic ++ version :: (code ++ labels ++ relocations)

def encode (o : Object) : Except EncodeError (List UInt8) := do
  if Nat.pow 2 32 ≤ o.code.length then .error (.codeLength o.code.length)
  let body ← (body o).mapError .fault
  return body ++ Sha256.digest body

end Asm64.ObjectFile
