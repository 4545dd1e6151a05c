import Mathlib.Data.List.TakeWhile
import Asm64.Proofs.Image.Loading

/-!
# The layout of executables

A file is read back field by field, at the offsets that the format gives to the fields of 64-bit
files.  An image can be written if it has one section, in which the entry and all symbols lie, and
starts at the beginning of a page.
-/

namespace Asm64.Elf

/-! ### Reading every field -/

structure FileFields where
  /-- The magic number, the class, the byte order and the version. -/
  identification : List UInt8
  kind : Nat
  machine : Nat
  version : Nat
  entry : Nat
  programHeaders : Nat
  sectionHeaders : Nat
  flags : Nat
  size : Nat
  programHeaderSize : Nat
  programHeaderCount : Nat
  sectionHeaderSize : Nat
  sectionHeaderCount : Nat
  sectionNames : Nat
deriving DecidableEq, Repr

def fileFields (file : List UInt8) : FileFields :=
  { identification := file.take 16
    kind := numberAt file 16 2
    machine := numberAt file 18 2
    version := numberAt file 20 4
    entry := numberAt file 24 8
    programHeaders := numberAt file 32 8
    sectionHeaders := numberAt file 40 8
    flags := numberAt file 48 4
    size := numberAt file 52 2
    programHeaderSize := numberAt file 54 2
    programHeaderCount := numberAt file 56 2
    sectionHeaderSize := numberAt file 58 2
    sectionHeaderCount := numberAt file 60 2
    sectionNames := numberAt file 62 2 }

/-- The header of a little-endian 64-bit executable for x86-64.  It has two program headers right
behind the file header, and no sections. -/
def executableFields (entry : Nat) : FileFields :=
  { identification := [0x7F, 0x45, 0x4C, 0x46, 2, 1, 1, 0, 0, 0, 0, 0, 0, 0, 0, 0]
    kind := 2
    machine := 0x3E
    version := 1
    entry := entry
    programHeaders := 64
    sectionHeaders := 0
    flags := 0
    size := 64
    programHeaderSize := 56
    programHeaderCount := 2
    sectionHeaderSize := 64
    sectionHeaderCount := 0
    sectionNames := 0 }

structure SegmentFields where
  kind : Nat
  flags : Nat
  offset : Nat
  address : Nat
  physicalAddress : Nat
  fileSize : Nat
  memorySize : Nat
  alignment : Nat
deriving DecidableEq, Repr

def segmentFields (file : List UInt8) (offset : Nat) : SegmentFields :=
  { kind := numberAt file offset 4
    flags := numberAt file (offset + 4) 4
    offset := numberAt file (offset + 8) 8
    address := numberAt file (offset + 16) 8
    physicalAddress := numberAt file (offset + 24) 8
    fileSize := numberAt file (offset + 32) 8
    memorySize := numberAt file (offset + 40) 8
    alignment := numberAt file (offset + 48) 8 }

/-- The program headers that the file header tells of. -/
def programFields (file : List UInt8) : List SegmentFields :=
  (List.range (fileFields file).programHeaderCount).map fun i =>
    segmentFields file ((fileFields file).programHeaders + i * (fileFields file).programHeaderSize)

def flagsOf (p : Permissions) : Nat :=
  (if p.read then 4 else 0) + (if p.write then 2 else 0) + (if p.execute then 1 else 0)

/-- The file has the headers of a 64-bit executable, which loads the whole file at `base`, and the
code behind them. -/
structure Describes (file : List UInt8) (base : UInt64) (code : Section) (entry : UInt64) :
    Prop where
  length : file.length = 176 + code.data.length
  data : file.drop 176 = code.data
  header : fileFields file = executableFields entry.toNat
  segments : programFields file =
    [{ kind := 6
       flags := flagsOf ⟨true, false, false⟩
       offset := 64
       address := base.toNat + 64
       physicalAddress := base.toNat + 64
       fileSize := 2 * 56
       memorySize := 2 * 56
       alignment := 8 },
     { kind := 1
       flags := flagsOf { code.permissions with read := true }
       offset := 0
       address := base.toNat
       physicalAddress := base.toNat
       fileSize := file.length
       memorySize := file.length
       alignment := 0x1000 }]

theorem segmentFields_append (h : ProgramHeader) (front rest : List UInt8) :
    segmentFields (front ++ (h.bytes ++ rest)) front.length =
      { kind := h.kind % 256 ^ 4
        flags := h.flags % 256 ^ 4
        offset := h.offset % 256 ^ 8
        address := h.address % 256 ^ 8
        physicalAddress := h.address % 256 ^ 8
        fileSize := h.size % 256 ^ 8
        memorySize := h.size % 256 ^ 8
        alignment := h.alignment % 256 ^ 8 } := by
  simp (disch := simp) only [segmentFields, ProgramHeader.bytes, List.append_assoc,
    numberAt_append_right, numberAt_littleEndian, length_littleEndian, Nat.add_sub_cancel_left,
    Nat.sub_self, Nat.reduceSub]

section File

variable {base entry : UInt64} {code : Section}

theorem fileFields_fileBytes :
    fileFields (fileBytes base entry code) = executableFields entry.toNat := by
  have bounded : entry.toNat % 256 ^ 8 = entry.toNat := Nat.mod_eq_of_lt entry.toNat_lt
  simp (disch := simp) only [fileFields, fileBytes, fileHeader, List.append_assoc,
    numberAt_append_right, numberAt_littleEndian, length_littleEndian, List.length_cons,
    List.length_nil, Nat.reduceAdd, Nat.reduceSub, bounded]
  rfl

theorem programFields_fileBytes :
    programFields (fileBytes base entry code) =
      [segmentFields (fileBytes base entry code) 64,
        segmentFields (fileBytes base entry code) 120] := by
  rw [programFields, fileFields_fileBytes]
  rfl

theorem segmentFlags_eq (p : Permissions) : segmentFlags p = flagsOf { p with read := true } := rfl

theorem flagsOf_lt (p : Permissions) : flagsOf p < 8 := by
  unfold flagsOf
  split <;> split <;> split <;> decide

/-- No field overflows: a base at the beginning of a page leaves room for the headers. -/
theorem describes_fileBytes (aligned : base.toNat % pageSize = 0)
    (addressable : Addressable code.data.length) :
    Describes (fileBytes base entry code) base code entry where
  length := length_fileBytes base entry code
  data := drop_fileBytes 0
  header := fileFields_fileBytes
  segments := by
    have first := segmentFields_append (headersSegment base) (fileHeader entry)
      ((loadSegment base code).bytes ++ code.data)
    have second := segmentFields_append (loadSegment base code)
      (fileHeader entry ++ (headersSegment base).bytes) code.data
    rw [length_fileHeader, ← List.append_assoc, ← List.append_assoc] at first
    rw [List.length_append, length_fileHeader, length_programHeader, ← List.append_assoc]
      at second
    have bounded := base.toNat_lt
    have flags := flagsOf_lt { code.permissions with read := true }
    have room : base.toNat + 64 < 256 ^ 8 := by
      unfold pageSize at aligned
      omega
    have short : headerSize + code.data.length < 256 ^ 8 := by
      unfold Addressable at addressable
      simp only [headerSize, fileHeaderSize, programHeaderCount, programHeaderSize]
      omega
    rw [programFields_fileBytes, length_fileBytes]
    refine congrArg₂ (fun s t => [s, t]) (first.trans ?_) (second.trans ?_)
    · simp only [headersSegment, fileHeaderSize, Nat.mod_eq_of_lt room]
      rfl
    · simp only [loadSegment, segmentFlags_eq, Nat.mod_eq_of_lt short,
        Nat.mod_eq_of_lt (show base.toNat < 256 ^ 8 from bounded),
        Nat.mod_eq_of_lt (show flagsOf { code.permissions with read := true } < 256 ^ 4 by omega)]
      rfl

end File

/-! ### Which images can be written -/

section Encoding

variable {image : Image} {code : Section} {entry : EntryPoint} {symbol : Symbol}

theorem entrySymbol?_placed (sections : List Section) (known : image.entry = some entry) :
    Image.entrySymbol? ⟨image.base, sections, image.symbols.map (placeSymbol image.base),
        some (placeEntry image.base entry)⟩ =
      image.entrySymbol?.map (placeSymbol image.base) := by
  rw [Image.entrySymbol?, Image.entrySymbol?, known]
  cases entry with
  | listed index => simp [placeEntry]
  | separate symbol => rfl

theorem encode_eq_layOut (sections : image.sections = [code]) (known : image.entry = some entry)
    (found : image.entrySymbol? = some symbol) (entryInCode : symbol.sectionIndex = 0)
    (aligned : image.base.toNat % pageSize = 0) : encode image = layOut image code entry := by
  simp only [encode, sections, known, found, entryInCode, aligned, ne_eq, not_true_eq_false,
    if_false]

/-- An image that meets all conditions is laid out as a whole and written. -/
theorem encode_of_valid (sections : image.sections = [code]) (known : image.entry = some entry)
    (found : image.entrySymbol? = some symbol) (entryInCode : symbol.sectionIndex = 0)
    (aligned : image.base.toNat % pageSize = 0) (inCode : ∀ s ∈ image.symbols, s.sectionIndex = 0) :
    encode image =
      ⟨.ok (fileBytes image.base (placeSymbol image.base symbol).address code),
        ⟨image.base, [placeSection image.base code], image.symbols.map (placeSymbol image.base),
          some (placeEntry image.base entry)⟩⟩ := by
  have all : ∀ s ∈ image.symbols, isInCode s = true := fun s member =>
    decide_eq_true (inCode s member)
  have placed := entrySymbol?_placed [placeSection image.base code] known
  rw [found] at placed
  rw [encode_eq_layOut sections known found entryInCode aligned]
  simp only [layOut, List.dropWhile_eq_nil_iff.mpr all, List.takeWhile_eq_self_iff.mpr all,
    List.append_nil, placed, Option.map_some]

theorem encode_eq_ok_iff :
    (∃ file, (encode image).result = .ok file) ↔
      image.sections.length = 1 ∧
        (∃ symbol, image.entrySymbol? = some symbol ∧ symbol.sectionIndex = 0) ∧
        image.base.toNat % pageSize = 0 ∧ ∀ s ∈ image.symbols, s.sectionIndex = 0 := by
  constructor
  · rintro ⟨file, encoded⟩
    unfold encode at encoded
    split at encoded
    · rename_i code entry symbol sections known found
      split at encoded
      · cases encoded
      · split at encoded
        · cases encoded
        · rename_i entryInCode aligned
          refine ⟨by rw [sections]; rfl, ⟨symbol, found, not_not.mp entryInCode⟩,
            not_not.mp aligned, ?_⟩
          unfold layOut at encoded
          split at encoded
          · cases encoded
          · rename_i none
            intro s member
            exact of_decide_eq_true (List.dropWhile_eq_nil_iff.mp none s member)
    · cases encoded
    · cases encoded
  · rintro ⟨one, ⟨symbol, found, entryInCode⟩, aligned, inCode⟩
    obtain ⟨code, sections⟩ := List.length_eq_one_iff.mp one
    cases known : image.entry with
    | none => simp [Image.entrySymbol?, known] at found
    | some entry =>
        rw [encode_of_valid sections known found entryInCode aligned inCode]
        exact ⟨_, rfl⟩

end Encoding

end Asm64.Elf
