import Asm64.Object.Locate

/-!
# Executable images

An image is an executable program before it is written in a file format: sections of data to be
loaded, symbols with their places, and the symbol where execution starts.
-/

namespace Asm64

inductive SymbolKind where
  | invalid
  | hidden
  | exported
  | other (number : UInt8)
deriving DecidableEq, Repr

namespace SymbolKind

def ofNumber (n : UInt8) : SymbolKind :=
  if n = 0 then invalid else if n = 1 then hidden else if n = 2 then exported else other n

def name : SymbolKind → Text
  | invalid => ascii "invalid"
  | hidden => ascii "private"
  | exported => ascii "public"
  | other number => ascii "SymbolKind(" ++ Text.decimal number.toNat ++ ascii ")"

end SymbolKind

structure Symbol where
  name : Text
  kind : SymbolKind
  /-- The index of the section that the symbol lies in. -/
  sectionIndex : Int
  /-- The offset in the section, or in the file once the image has been laid out. -/
  offset : UInt64
  /-- The address in memory once the image has been laid out. -/
  address : UInt64
deriving DecidableEq, Repr

structure Permissions where
  read : Bool
  write : Bool
  execute : Bool
deriving DecidableEq, Repr

namespace Permissions

/-- The permissions given by the three low bits of a byte. -/
def ofByte (b : UInt8) : Permissions := ⟨b &&& 1 != 0, b &&& 2 != 0, b &&& 4 != 0⟩

def render (p : Permissions) : Text :=
  [if p.read then 82 else 45, if p.write then 87 else 45, if p.execute then 88 else 45]

end Permissions

structure Section where
  name : Text
  /-- The address in memory once the image has been laid out. -/
  address : UInt64
  /-- The offset in the file once the image has been laid out. -/
  offset : UInt64
  permissions : Permissions
  data : List UInt8
deriving DecidableEq, Repr

/-- Where execution starts: at one of the symbols of the image, or at a symbol of its own. -/
inductive EntryPoint where
  | listed (index : Nat)
  | separate (symbol : Symbol)
deriving DecidableEq, Repr

structure Image where
  base : UInt64
  sections : List Section
  symbols : List Symbol
  entry : Option EntryPoint
deriving DecidableEq, Repr

namespace Image

def entrySymbol? (image : Image) : Option Symbol :=
  match image.entry with
  | some (.listed index) => image.symbols[index]?
  | some (.separate symbol) => some symbol
  | none => none

/-- One line for each symbol, in the order of their addresses. -/
def symbolMap (image : Image) : Text :=
  (image.symbols.mergeSort fun s t => s.address ≤ t.address).flatMap fun s =>
    Text.hex 8 s.address.toNat ++ ascii "  " ++ Text.padEnd 7 32 s.kind.name ++ ascii "  " ++
      s.name ++ [10]

end Image

inductive ImageError where
  | locate (error : LocateError)
  | undefinedEntry (name : Text)
deriving DecidableEq, Repr

def ImageError.message : ImageError → Text
  | locate error => error.message
  | undefinedEntry name => ascii "entry point: undefined label " ++ Text.quote name

namespace Object

def imageBase : UInt64 := 0x400000

def symbol (l : Label) : Symbol :=
  ⟨l.name, if l.isPublic then .exported else .hidden, 0, UInt64.ofNat (twosComplement l.value), 0⟩

def imageOfLocated (o : Object) (entry : Text) : Except ImageError Image :=
  match o.label? entry with
  | none => .error (.undefinedEntry entry)
  | some label =>
    .ok { base := imageBase
          sections := [⟨ascii "code", 0, 0, ⟨true, false, true⟩, o.code⟩]
          symbols := o.labels.map symbol
          entry := (o.labels.findIdx? (· = label)).map .listed }

/-- Locates the object and describes it as an executable that starts at the label `entry`. -/
def image (o : Object) (entry : Text) : Except ImageError Image := do
  let located ← o.locate.mapError .locate
  located.imageOfLocated entry

end Object

end Asm64
