import Asm64.Object.Locate

/-!
# Linking objects

Linking appends one object to another, so that each can refer to the public labels of the other.
Both are located first, and the code of the first is padded with zeros to a multiple of sixteen
bytes. If linking fails, the first object is unchanged, but the second may have been located, or
partly written if locating it has failed on the way.
-/

namespace Asm64

inductive LinkError where
  | locate (error : LocateError)
  /-- Both objects have a public label of this name. -/
  | redefined (label : Text)
deriving DecidableEq, Repr

def LinkError.message : LinkError → Text
  | locate error => error.message
  | redefined label =>
    ascii "label redefined: public label " ++ Text.quote label ++
      ascii " is defined in both objects"

/-- The number of bytes that are missing to a multiple of `alignment`. -/
def paddingFor (alignment length : Nat) : Nat := (alignment - length % alignment) % alignment

def Label.shift (base : Nat) (l : Label) : Label := { l with value := wrap64 (l.value + base) }

/-- A relocation that is moved behind other code. It is external from then on. -/
def Relocation.shift (base : Nat) (r : Relocation) : Relocation :=
  { r with
    offset := wrap64 (r.offset + base)
    relativeTo := wrap64 (r.relativeTo + base)
    isExternal := true }

namespace Object

def linkAlignment : Nat := 16

def pad (alignment : Nat) (o : Object) : Object :=
  { o with code := o.code ++ List.replicate (paddingFor alignment o.code.length) 0 }

def publicNames (o : Object) : List Text := (o.labels.filter (·.isPublic)).map (·.name)

/-- The first public label of `other` whose name is also that of a public label of `o`. -/
def clash? (o other : Object) : Option Text :=
  other.publicNames.find? fun name => o.publicNames.contains name

def append (o other : Object) : Object :=
  { code := o.code ++ other.code
    labels := o.labels ++ other.labels.map (Label.shift o.code.length)
    relocations := o.relocations ++ other.relocations.map (Relocation.shift o.code.length) }

structure LinkOutcome where
  result : Except LinkError Object
  /-- The second object afterwards. -/
  other : Object
deriving Repr

def linkLocated (o other : Object) : Except LinkError Object :=
  match o.clash? other with
  | some name => .error (.redefined name)
  | none => (((o.pad linkAlignment).append other).locatePartially).mapError .locate

def link (o other : Object) : LinkOutcome :=
  match o.locatePartially with
  | .error e => ⟨.error (.locate e), other⟩
  | .ok located =>
    match other.locatePartially with
    | .error e => ⟨.error (.locate e), (other.locateOutcome .kept).object⟩
    | .ok otherLocated => ⟨located.linkLocated otherLocated, otherLocated⟩

/-- The offset of the second object's code after linking. -/
def linkBase (o : Object) : Nat := o.code.length + paddingFor linkAlignment o.code.length

end Object

end Asm64
