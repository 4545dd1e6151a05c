import Asm64.Object.Basic

/-!
# Locating objects

Locating writes the distance to its label into the field of each relocation. Relocations to
private labels are then settled and dropped. Those to public labels are kept, because linking
moves code and they have to be written again. A relocation without a label is an error, or is
kept and marked as external, as `Undefined` says.

All relocations are looked at before the first byte is written, so that an error that is found then
changes nothing. The end of a field is computed as a signed 64-bit number, though. A field that ends
past the largest of them looks as if it lay in the code, and writing fails when it gets there.
-/

namespace Asm64

inductive LocateError where
  | undefined (label : Text)
  /-- The field is not part of the code. -/
  | outside (relocation : Relocation) (length : Nat)
  /-- The distance does not fit in the field. -/
  | tooFar (label : Text) (distance : Int) (bits : Int)
  /-- The field cannot be written: its size is not that of any field, or bytes of it would land
  behind the code. -/
  | malformed
deriving DecidableEq, Repr

namespace LocateError

/-- Whether the object itself is broken. No object that was assembled or read from a file is. -/
def isInconsistency : LocateError → Bool
  | outside _ _ => true
  | malformed => true
  | _ => false

def message : LocateError → Text
  | undefined label => ascii "undefined label " ++ Text.quote label
  | outside r length =>
    ascii "reference to " ++ Text.quote r.label ++ ascii " at offset " ++
      Text.decimalInt r.offset ++ ascii " with size " ++ Text.decimalInt r.size ++
      ascii " is outside the code (" ++ Text.decimal length ++ ascii " bytes)"
  | tooFar label distance bits =>
    ascii "relocation out of range: label " ++ Text.quote label ++ ascii " is " ++
      Text.decimalInt distance ++ ascii " bytes away, which does not fit in " ++
      Text.decimalInt bits ++ ascii " bits"
  | malformed => []

end LocateError

namespace Relocation

def distance (r : Relocation) (l : Label) : Int := wrap64 (l.value - r.relativeTo)

def bits (r : Relocation) : Int := wrap64 (8 * r.size)

/-- Whether a signed number lies in the range of the field. Fields of 64 bits and more hold every
offset. -/
def holds (r : Relocation) (distance : Int) : Bool :=
  64 ≤ r.bits ∨
    (-Int.pow 2 (r.bits.toNat - 1) ≤ distance ∧ distance < Int.pow 2 (r.bits.toNat - 1))

end Relocation

/-- Replaces consecutive bytes. Bytes beyond the end are dropped. -/
def overwrite (code : List UInt8) : (offset : Nat) → List UInt8 → List UInt8
  | _, [] => code
  | offset, b :: rest => overwrite (code.set offset b) (offset + 1) rest

/-- A number that is to be stored at an offset, in so many bytes. -/
structure Patch where
  offset : Nat
  size : Nat
  number : Nat
deriving DecidableEq, Repr

namespace Patch

def bytes (p : Patch) : List UInt8 := littleEndian p.size p.number

def apply (code : List UInt8) (p : Patch) : List UInt8 := overwrite code p.offset p.bytes

def fits (length : Nat) (p : Patch) : Bool := p.size = 0 ∨ p.offset + p.size ≤ length

def clip (length : Nat) (p : Patch) : Patch := { p with size := min p.size (length - p.offset) }

/-- Applies patches one after another. If a byte lands behind the code, there is only the code as
the bytes before have left it. -/
def applyAll (code : List UInt8) : List Patch → Except (List UInt8) (List UInt8)
  | [] => .ok code
  | p :: rest =>
    if p.fits code.length then applyAll (p.apply code) rest
    else .error ((p.clip code.length).apply code)

end Patch

/-- What becomes of a relocation whose label is not known. -/
inductive Undefined where
  /-- It is an error. -/
  | refused
  /-- It is kept, and marked as external. -/
  | kept
deriving DecidableEq, Repr

namespace Object

/-- What a relocation to a label writes. -/
def patch (o : Object) (r : Relocation) (l : Label) : Except LocateError Patch :=
  if r.offset < 0 ∨ o.code.length < wrap64 (r.offset + r.size) then
    .error (.outside r o.code.length)
  else if r.bits ≤ 0 then .error .malformed
  else if !r.holds (r.distance l) then .error (.tooFar r.label (r.distance l) r.bits)
  else .ok ⟨r.offset.toNat, r.size.toNat, twosComplement (r.distance l)⟩

/-- What locating does with one relocation: a number to write, and the relocation that remains. -/
structure Resolution where
  patch : Option Patch
  remains : Option Relocation
deriving DecidableEq, Repr

def resolve (o : Object) (undefined : Undefined) (r : Relocation) :
    Except LocateError Resolution :=
  match o.target? r with
  | none =>
    match undefined with
    | .refused => .error (.undefined r.label)
    | .kept => .ok ⟨none, some { r with isExternal := true }⟩
  | some l => do
    let patch ← o.patch r l
    return ⟨some patch, if l.isPublic then some r else none⟩

structure LocateOutcome where
  result : Except LocateError Unit
  /-- The object afterwards. -/
  object : Object
deriving Repr

def locateOutcome (undefined : Undefined) (o : Object) : LocateOutcome :=
  match o.relocations.mapM (o.resolve undefined) with
  | .error e => ⟨.error e, o⟩
  | .ok resolutions =>
    match Patch.applyAll o.code (resolutions.filterMap (·.patch)) with
    | .error code => ⟨.error .malformed, { o with code }⟩
    | .ok code =>
      ⟨.ok (), { o with code, relocations := resolutions.filterMap (·.remains) }⟩

def locateWith (undefined : Undefined) (o : Object) : Except LocateError Object :=
  match o.locateOutcome undefined with
  | ⟨.ok (), located⟩ => .ok located
  | ⟨.error e, _⟩ => .error e

/-- Writes every relocation. Every label has to be defined. -/
def locate (o : Object) : Except LocateError Object := o.locateWith .refused

/-- Writes the relocations whose labels are defined, and keeps the others. -/
def locatePartially (o : Object) : Except LocateError Object := o.locateWith .kept

end Object

end Asm64
