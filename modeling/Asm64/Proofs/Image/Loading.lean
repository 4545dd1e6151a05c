import Asm64.Image.Elf
import Asm64.Proofs.Object.Locate

/-!
# Executables in memory

A loader reads an executable by its headers: the file header says where the program headers are
and where execution starts, and each program header of the loading kind says which part of the
file goes to which addresses.  Read in this way, the file of an object puts its located code behind
the headers, starts at the entry label, and has every reference lead to the address of its label.
-/

namespace Asm64

namespace Elf

/-! ### Reading the headers -/

/-- The number in `size` bytes of a file, least significant byte first. -/
def numberAt (file : List UInt8) (offset size : Nat) : Nat :=
  ofLittleEndian ((file.drop offset).take size)

structure Segment where
  kind : Nat
  /-- The offset of the segment in the file. -/
  offset : Nat
  address : Nat
  fileSize : Nat
  /-- The bytes that are not in the file are zero. -/
  memorySize : Nat
deriving DecidableEq, Repr

def loadKind : Nat := 1

def segmentAt (file : List UInt8) (offset : Nat) : Segment :=
  { kind := numberAt file offset 4
    offset := numberAt file (offset + 8) 8
    address := numberAt file (offset + 16) 8
    fileSize := numberAt file (offset + 32) 8
    memorySize := numberAt file (offset + 40) 8 }

/-- The program headers, of which the file header gives the place, the size and the number. -/
def segments (file : List UInt8) : List Segment :=
  (List.range (numberAt file 56 2)).map fun i =>
    segmentAt file (numberAt file 32 8 + i * numberAt file 54 2)

def entryAddress (file : List UInt8) : Nat := numberAt file 24 8

def Segment.byteAt? (s : Segment) (file : List UInt8) (address : Nat) : Option UInt8 :=
  if s.kind = loadKind ∧ s.address ≤ address ∧ address < s.address + s.memorySize then
    if address < s.address + s.fileSize then file[s.offset + (address - s.address)]? else some 0
  else none

/-- The byte at an address after the file has been loaded. -/
def memory (file : List UInt8) (address : Nat) : Option UInt8 :=
  (segments file).findSome? (·.byteAt? file address)

/-- The bytes from an address on. -/
def memoryField? (file : List UInt8) (address : Nat) : (size : Nat) → Option (List UInt8)
  | 0 => some []
  | size + 1 => do
    let byte ← memory file address
    let rest ← memoryField? file (address + 1) size
    return byte :: rest

theorem numberAt_append_right {front rest : List UInt8} {offset : Nat}
    (behind : front.length ≤ offset) (size : Nat) :
    numberAt (front ++ rest) offset size = numberAt rest (offset - front.length) size := by
  rw [numberAt, List.drop_append, List.drop_eq_nil_of_le behind, List.nil_append, numberAt]

theorem numberAt_littleEndian (size number : Nat) (rest : List UInt8) :
    numberAt (littleEndian size number ++ rest) 0 size = number % 256 ^ size := by
  rw [numberAt, List.drop_zero, List.take_left' (length_littleEndian size number),
    ofLittleEndian_littleEndian]

/-- The numbers of a program header have a place in its fields. -/
structure ProgramHeader.Fits (h : ProgramHeader) : Prop where
  kind : h.kind < 256 ^ 4
  offset : h.offset < 256 ^ 8
  address : h.address < 256 ^ 8
  size : h.size < 256 ^ 8

theorem segmentAt_append {h : ProgramHeader} (fits : h.Fits) (front rest : List UInt8) :
    segmentAt (front ++ (h.bytes ++ rest)) front.length =
      ⟨h.kind, h.offset, h.address, h.size, h.size⟩ := by
  obtain ⟨kind, offset, address, size⟩ := fits
  simp (disch := simp) only [segmentAt, ProgramHeader.bytes, List.append_assoc,
    numberAt_append_right, numberAt_littleEndian, length_littleEndian, Nat.add_sub_cancel_left,
    Nat.sub_self, Nat.reduceSub]
  rw [Nat.mod_eq_of_lt kind, Nat.mod_eq_of_lt offset, Nat.mod_eq_of_lt address,
    Nat.mod_eq_of_lt size]

section File

variable {base entry : UInt64} {code : Section}

theorem length_fileHeader (entry : UInt64) : (fileHeader entry).length = fileHeaderSize := by
  simp [fileHeader, fileHeaderSize]

theorem length_programHeader (h : ProgramHeader) : h.bytes.length = programHeaderSize := by
  simp [ProgramHeader.bytes, programHeaderSize]

def headers (base entry : UInt64) (code : Section) : List UInt8 :=
  fileHeader entry ++ (headersSegment base).bytes ++ (loadSegment base code).bytes

theorem fileBytes_eq : fileBytes base entry code = headers base entry code ++ code.data := rfl

theorem length_headers (base entry : UInt64) (code : Section) :
    (headers base entry code).length = headerSize := by
  simp only [headers, List.length_append, length_fileHeader, length_programHeader]
  rfl

theorem length_fileBytes (base entry : UInt64) (code : Section) :
    (fileBytes base entry code).length = headerSize + code.data.length := by
  rw [fileBytes_eq, List.length_append, length_headers]

theorem drop_fileBytes (offset : Nat) :
    (fileBytes base entry code).drop (headerSize + offset) = code.data.drop offset := by
  rw [fileBytes_eq, ← length_headers base entry code, List.drop_length_add_append]

theorem fileHeader_numbers (base entry : UInt64) (code : Section) :
    entryAddress (fileBytes base entry code) = entry.toNat ∧
      numberAt (fileBytes base entry code) 32 8 = fileHeaderSize ∧
      numberAt (fileBytes base entry code) 54 2 = programHeaderSize ∧
      numberAt (fileBytes base entry code) 56 2 = programHeaderCount := by
  have bounded := entry.toNat_lt
  simp (disch := simp) only [entryAddress, fileBytes, fileHeader, List.append_assoc,
    numberAt_append_right, numberAt_littleEndian, length_littleEndian, List.length_cons,
    List.length_nil, Nat.reduceAdd, Nat.reduceSub]
  exact ⟨Nat.mod_eq_of_lt bounded, rfl, rfl, rfl⟩

variable (room : base.toNat + headerSize + code.data.length < 2 ^ 64)

include room

theorem segments_fileBytes :
    segments (fileBytes base entry code) =
      [⟨6, fileHeaderSize, base.toNat + fileHeaderSize, programHeaderCount * programHeaderSize,
          programHeaderCount * programHeaderSize⟩,
        ⟨loadKind, 0, base.toNat, headerSize + code.data.length,
          headerSize + code.data.length⟩] := by
  obtain ⟨-, place, size, count⟩ := fileHeader_numbers base entry code
  have headersFit : (headersSegment base).Fits := by
    constructor <;>
      simp only [headersSegment, headerSize, fileHeaderSize, programHeaderCount,
        programHeaderSize] at room ⊢ <;>
      omega
  have loadFits : (loadSegment base code).Fits := by
    constructor <;> simp only [loadSegment] <;> omega
  have first := segmentAt_append headersFit (fileHeader entry)
    ((loadSegment base code).bytes ++ code.data)
  have second := segmentAt_append loadFits (fileHeader entry ++ (headersSegment base).bytes)
    code.data
  rw [length_fileHeader, ← List.append_assoc, ← List.append_assoc] at first
  rw [List.length_append, length_fileHeader, length_programHeader, ← List.append_assoc] at second
  rw [segments, count, place, size]
  exact congrArg₂ (fun s t => [s, t]) first second

/-- The file is in memory from its base address on, and nothing else is. -/
theorem memory_fileBytes (address : Nat) :
    memory (fileBytes base entry code) address =
      if base.toNat ≤ address then (fileBytes base entry code)[address - base.toNat]?
      else none := by
  have length := length_fileBytes base entry code
  rw [memory, segments_fileBytes room]
  simp only [List.findSome?_cons, List.findSome?_nil, Segment.byteAt?, loadKind,
    OfNat.ofNat_ne_one, false_and, if_false, true_and, Nat.zero_add]
  by_cases reached : base.toNat ≤ address
  · by_cases inside : address < base.toNat + (headerSize + code.data.length)
    · rw [if_pos ⟨reached, inside⟩, if_pos inside, if_pos reached]
      cases (fileBytes base entry code)[address - base.toNat]? <;> rfl
    · rw [if_neg (fun both => inside both.2), if_pos reached,
        List.getElem?_eq_none (by omega)]
  · rw [if_neg (fun both => reached both.1), if_neg reached]

theorem memoryField?_fileBytes {offset size : Nat}
    (within : offset + size ≤ headerSize + code.data.length) :
    memoryField? (fileBytes base entry code) (base.toNat + offset) size =
      some (((fileBytes base entry code).drop offset).take size) := by
  induction size generalizing offset with
  | zero => rfl
  | succ size inductionHypothesis =>
      have inside : offset < (fileBytes base entry code).length := by
        rw [length_fileBytes]
        omega
      rw [memoryField?, memory_fileBytes room, if_pos (Nat.le_add_right _ _),
        Nat.add_sub_cancel_left, List.getElem?_eq_getElem inside, Nat.add_assoc,
        inductionHypothesis (by omega), List.drop_eq_getElem_cons inside]
      rfl

theorem memoryField?_code {offset size : Nat} (within : offset + size ≤ code.data.length) :
    memoryField? (fileBytes base entry code) (base.toNat + headerSize + offset) size =
      some ((code.data.drop offset).take size) := by
  rw [Nat.add_assoc, memoryField?_fileBytes room (by omega), drop_fileBytes]

end File

end Elf

end Asm64
