import Asm64.Image.Basic

/-!
# ELF executables

An image of one section is written as an ELF file with two program headers: one for the headers
themselves, and one that loads the whole file. The code follows the headers immediately.
Addresses wrap at 64 bits.
-/

namespace Asm64.Elf

inductive Error where
  | sectionCount (count : Nat)
  | noEntry
  | entrySection (name : Text) (index : Int)
  | unalignedBase (base : UInt64)
  | symbolSection (name : Text) (index : Int)
deriving DecidableEq, Repr

def Error.message : Error → Text
  | sectionCount count => ascii "elf: got " ++ Text.decimal count ++ ascii " sections, want 1"
  | noEntry => ascii "elf: no entry point symbol"
  | entrySection name index =>
    ascii "elf: entry point " ++ Text.quote name ++ ascii " is in section " ++
      Text.decimalInt index
  | unalignedBase base =>
    ascii "elf: base address 0x" ++ Text.hex 1 base.toNat ++ ascii " is not page-aligned"
  | symbolSection name index =>
    ascii "elf: symbol " ++ Text.quote name ++ ascii " is in section " ++ Text.decimalInt index

def pageSize : Nat := 0x1000
def fileHeaderSize : Nat := 0x40
def programHeaderSize : Nat := 0x38
def sectionHeaderSize : Nat := 0x40
def programHeaderCount : Nat := 2

def headerSize : Nat := fileHeaderSize + programHeaderCount * programHeaderSize

/-- A program header: a part of the file and where it is loaded. -/
structure ProgramHeader where
  kind : Nat
  flags : Nat
  offset : Nat
  address : Nat
  size : Nat
  alignment : Nat
deriving DecidableEq, Repr

def ProgramHeader.bytes (h : ProgramHeader) : List UInt8 :=
  littleEndian 4 h.kind ++ littleEndian 4 h.flags ++ littleEndian 8 h.offset ++
    littleEndian 8 h.address ++ littleEndian 8 h.address ++ littleEndian 8 h.size ++
    littleEndian 8 h.size ++ littleEndian 8 h.alignment

/-- The flag bits of a segment, which can always be read. -/
def segmentFlags (p : Permissions) : Nat :=
  4 + (if p.write then 2 else 0) + (if p.execute then 1 else 0)

/-- The header that describes the program headers. -/
def headersSegment (base : UInt64) : ProgramHeader :=
  { kind := 6, flags := 4, offset := fileHeaderSize, address := base.toNat + fileHeaderSize,
    size := programHeaderCount * programHeaderSize, alignment := 8 }

def loadSegment (base : UInt64) (code : Section) : ProgramHeader :=
  { kind := 1, flags := segmentFlags code.permissions, offset := 0, address := base.toNat,
    size := headerSize + code.data.length, alignment := pageSize }

/-- The header of the file: 64-bit, little endian, executable, for x86-64. -/
def fileHeader (entry : UInt64) : List UInt8 :=
  [0x7F, 0x45, 0x4C, 0x46, 2, 1, 1, 0, 0, 0, 0, 0, 0, 0, 0, 0] ++
    littleEndian 2 0x02 ++ littleEndian 2 0x3E ++ littleEndian 4 1 ++
    littleEndian 8 entry.toNat ++ littleEndian 8 fileHeaderSize ++ littleEndian 8 0 ++
    littleEndian 4 0 ++ littleEndian 2 fileHeaderSize ++ littleEndian 2 programHeaderSize ++
    littleEndian 2 programHeaderCount ++ littleEndian 2 sectionHeaderSize ++
    littleEndian 2 0 ++ littleEndian 2 0

def fileBytes (base entry : UInt64) (code : Section) : List UInt8 :=
  fileHeader entry ++ (headersSegment base).bytes ++ (loadSegment base code).bytes ++ code.data

/-- Turns the offset of a symbol in the code into its place in the file and in memory. -/
def placeSymbol (base : UInt64) (s : Symbol) : Symbol :=
  { s with
    offset := UInt64.ofNat headerSize + s.offset
    address := base + UInt64.ofNat headerSize + s.offset }

def placeSection (base : UInt64) (s : Section) : Section :=
  { s with offset := UInt64.ofNat headerSize, address := base + UInt64.ofNat headerSize }

def isInCode (s : Symbol) : Bool := s.sectionIndex = 0

def placeEntry (base : UInt64) : EntryPoint → EntryPoint
  | .listed index => .listed index
  | .separate symbol => .separate (placeSymbol base symbol)

/-- The file, and the image as it was laid out. An image that cannot be written may have been laid
out in part. -/
structure Outcome where
  result : Except Error (List UInt8)
  image : Image
deriving Repr

/-- Lays out the only section of an image and its symbols, up to the first one that lies in
another section. -/
def layOut (image : Image) (code : Section) (entry : EntryPoint) : Outcome :=
  let placed := { image with
    sections := [placeSection image.base code]
    symbols := (image.symbols.takeWhile isInCode).map (placeSymbol image.base) ++
      image.symbols.dropWhile isInCode }
  match image.symbols.dropWhile isInCode with
  | s :: _ => ⟨.error (.symbolSection s.name s.sectionIndex), placed⟩
  | [] =>
    let placed := { placed with entry := some (placeEntry image.base entry) }
    match placed.entrySymbol? with
    | some s => ⟨.ok (fileBytes image.base s.address code), placed⟩
    | none => ⟨.error .noEntry, placed⟩

def encode (image : Image) : Outcome :=
  match image.sections, image.entry, image.entrySymbol? with
  | [code], some entry, some symbol =>
    if symbol.sectionIndex ≠ 0 then ⟨.error (.entrySection symbol.name symbol.sectionIndex), image⟩
    else if image.base.toNat % pageSize ≠ 0 then ⟨.error (.unalignedBase image.base), image⟩
    else layOut image code entry
  | [_], _, _ => ⟨.error .noEntry, image⟩
  | sections, _, _ => ⟨.error (.sectionCount sections.length), image⟩

end Asm64.Elf
