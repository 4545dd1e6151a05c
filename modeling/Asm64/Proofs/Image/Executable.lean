import Asm64.Proofs.Image.FileLayout

/-!
# Executables of objects

The executable of an object is its image written as an ELF file.  It exists exactly if every
relocation can be written and the entry label is defined.
-/

namespace Asm64

inductive ExecutableError where
  | image (error : ImageError)
  | file (error : Elf.Error)
deriving DecidableEq, Repr

namespace Object

def executable (o : Object) (entry : Text) : Except ExecutableError (List UInt8) := do
  let image ← (o.image entry).mapError .image
  (Elf.encode image).result.mapError .file

def codeSection (code : List UInt8) : Section :=
  ⟨ascii "code", 0, 0, ⟨true, false, true⟩, code⟩

def addressOf (l : Label) : UInt64 := (Elf.placeSymbol imageBase (symbol l)).address

/-- The image of an object, with its entry at the given place among the labels. -/
def imageAt (o : Object) (index : Nat) : Image :=
  ⟨imageBase, [codeSection o.code], o.labels.map symbol, some (.listed index)⟩

theorem imageOfLocated_eq_ok {o : Object} {entry : Text} {l : Label}
    (found : o.label? entry = some l) :
    ∃ index, o.labels[index]? = some l ∧ o.imageOfLocated entry = .ok (o.imageAt index) := by
  have member := (mem_of_label?_eq_some found).1
  have first : o.labels.findIdx? (· = l) = some (o.labels.findIdx (· = l)) :=
    List.findIdx?_eq_some_of_exists ⟨l, member, by simp⟩
  obtain ⟨inside, same, -⟩ := List.findIdx?_eq_some_iff_getElem.mp first
  refine ⟨o.labels.findIdx (· = l), ?_, ?_⟩
  · rw [List.getElem?_eq_getElem inside]
    simpa using same
  · simp only [imageOfLocated, found, first]
    rfl

/-- All symbols of the image lie in its only section, so writing it cannot fail. -/
theorem encode_imageAt {o : Object} {index : Nat} {l : Label} (listed : o.labels[index]? = some l) :
    (Elf.encode (o.imageAt index)).result =
      .ok (Elf.fileBytes imageBase (addressOf l) (codeSection o.code)) := by
  have inCode : ∀ s ∈ (o.imageAt index).symbols, s.sectionIndex = 0 := by
    intro s member
    obtain ⟨label, -, rfl⟩ := List.mem_map.mp member
    rfl
  have entry : (o.imageAt index).entrySymbol? = some (symbol l) := by
    simp [imageAt, Image.entrySymbol?, listed]
  have aligned : imageBase.toNat % Elf.pageSize = 0 := by decide
  rw [Elf.encode_of_valid rfl rfl entry rfl aligned inCode]
  rfl

theorem executable_eq_ok_iff {o : Object} {entry : Text} {file : List UInt8} :
    o.executable entry = .ok file ↔
      ∃ located l, o.locate = .ok located ∧ o.label? entry = some l ∧
        file = Elf.fileBytes imageBase (addressOf l) (codeSection located.code) := by
  simp only [executable, image, bind_eq_ok_iff, mapError_eq_ok_iff]
  constructor
  · rintro ⟨image, ⟨located, succeeded, described⟩, encoded⟩
    obtain ⟨-, -, rfl⟩ := locate_eq_ok_iff.mp succeeded
    have sameLabel : o.written.label? entry = o.label? entry := rfl
    cases found : o.label? entry with
    | none => simp [imageOfLocated, sameLabel, found] at described
    | some l =>
        obtain ⟨index, listed, known⟩ := imageOfLocated_eq_ok (sameLabel.trans found)
        rw [known, Except.ok.injEq] at described
        rw [← described, encode_imageAt listed, Except.ok.injEq] at encoded
        exact ⟨o.written, l, succeeded, rfl, encoded.symm⟩
  · rintro ⟨located, l, succeeded, found, rfl⟩
    obtain ⟨-, -, rfl⟩ := locate_eq_ok_iff.mp succeeded
    obtain ⟨index, listed, known⟩ := imageOfLocated_eq_ok (o := o.written) found
    exact ⟨_, ⟨_, succeeded, known⟩, encode_imageAt listed⟩

theorem toNat_addressOf {l : Label} (offset : IsOffset l.value) :
    ((addressOf l).toNat : Int) = 0x400000 + 176 + l.value := by
  obtain ⟨nonnegative, bounded⟩ := offset
  have small : twosComplement l.value = l.value.toNat := by
    rw [twosComplement, Int.pow_eq, Int.emod_eq_of_lt nonnegative (by omega)]
  have base : (imageBase + UInt64.ofNat Elf.headerSize).toNat = 0x400000 + 176 := by decide
  have address : addressOf l =
      imageBase + UInt64.ofNat Elf.headerSize + UInt64.ofNat l.value.toNat := by
    rw [← small]
    rfl
  rw [address, UInt64.toNat_add, base, UInt64.toNat_ofNat']
  omega

/-- The executable of an object consists of the headers and the located code.  It is loaded at
0x400000, it starts at the entry label, and every reference leads from the place it is relative to
to the address of its label.  Without the entry label, or with a reference to nothing, there is no
executable. -/
theorem executable_is_faithful {o : Object}
    (labels : ∀ l ∈ o.labels, 0 ≤ l.value ∧ l.value ≤ o.code.length)
    (fields : ∀ r ∈ o.relocations, (r.size = 1 ∨ r.size = 2 ∨ r.size = 4 ∨ r.size = 8) ∧
      0 ≤ r.offset ∧ r.offset + r.size ≤ o.code.length)
    (disjoint : o.relocations.Pairwise Relocation.Disjoint)
    (measured : ∀ r ∈ o.relocations, 0 ≤ r.relativeTo ∧ r.relativeTo < 2 ^ 63)
    (addressable : Addressable o.code.length) (entry : Text) :
    (∀ file, o.executable entry = .ok file →
      ∃ located l, o.locate = .ok located ∧ o.label? entry = some l ∧
        file.length = 176 + located.code.length ∧ file.drop 176 = located.code ∧
        (∀ address, Elf.memory file address =
          if 0x400000 ≤ address then file[address - 0x400000]? else none) ∧
        (Elf.entryAddress file : Int) = 0x400000 + 176 + l.value ∧
        ∀ r ∈ o.relocations, ∃ target bytes, o.target? r = some target ∧
          Elf.memoryField? file (0x400000 + 176 + r.offset.toNat) r.size.toNat = some bytes ∧
          (0x400000 + 176 + r.relativeTo) + signedOfLittleEndian bytes =
            0x400000 + 176 + target.value) ∧
    ((∃ r ∈ o.relocations, o.target? r = none) ∨ o.label? entry = none →
      ∃ failure, o.executable entry = .error failure) := by
  have inCode : ∀ r ∈ o.relocations, r.InCode o.code.length := fun r member =>
    ⟨(fields r member).1, (fields r member).2.1, (fields r member).2.2⟩
  have labelled {l : Label} (member : l ∈ o.labels) : IsOffset l.value :=
    Label.InBounds.isOffset ⟨(labels l member).1, (labels l member).2⟩ addressable
  constructor
  · intro file written
    obtain ⟨located, l, succeeded, found, rfl⟩ := executable_eq_ok_iff.mp written
    obtain ⟨defined, writable, rfl⟩ := locate_eq_ok_iff.mp succeeded
    have length := length_written_code o
    have room : imageBase.toNat + Elf.headerSize + o.written.code.length < 2 ^ 64 := by
      have start : imageBase.toNat + Elf.headerSize = 0x400000 + 176 := by decide
      unfold Addressable at addressable
      omega
    refine ⟨o.written, l, succeeded, found, Elf.length_fileBytes _ _ _, Elf.drop_fileBytes 0,
      Elf.memory_fileBytes room, ?_, ?_⟩
    · rw [(Elf.fileHeader_numbers _ _ _).1]
      exact toNat_addressOf (labelled (mem_of_label?_eq_some found).1)
    · intro r member
      obtain ⟨target, resolved⟩ := Option.ne_none_iff_exists'.mp (defined r member)
      have bounds := inCode r member
      have within : r.offset.toNat + r.size.toNat ≤ o.written.code.length := by
        have nonnegative := bounds.offset
        have size := bounds.size
        have field := bounds.field
        omega
      have targetOffset := labelled (mem_of_target?_eq_some resolved).1
      have reaches : r.Reaches target :=
        (writable_iff addressable bounds (measured r member) targetOffset).mp
          (writable r member target resolved)
      have held := signed_field_written_code inCode disjoint member resolved (measured r member)
        targetOffset reaches
      refine ⟨target, r.field o.written.code, resolved, Elf.memoryField?_code room within, ?_⟩
      omega
  · intro missing
    cases written : o.executable entry with
    | error failure => exact ⟨failure, rfl⟩
    | ok file =>
        obtain ⟨located, l, succeeded, found, -⟩ := executable_eq_ok_iff.mp written
        have defined := (locate_eq_ok_iff.mp succeeded).1
        rcases missing with ⟨r, member, undefined⟩ | noEntry
        · exact absurd undefined (defined r member)
        · rw [noEntry] at found
          cases found

/-- A call forwards and a short jump backwards.  Two labels have the name of the entry. -/
def sampleProgram : Object :=
  ⟨[232, 0, 0, 0, 0, 235, 0, 195],
    [⟨ascii "start", 5, false⟩, ⟨ascii "start", 0, true⟩, ⟨ascii "done", 7, false⟩],
    [⟨ascii "done", 1, 4, 5, false⟩, ⟨ascii "start", 6, 1, 7, false⟩]⟩

theorem executable_is_faithful_sample :
    (∃ file, sampleProgram.executable (ascii "start") = .ok file ∧ file.length = 184 ∧
      Elf.entryAddress file = 0x4000B0 ∧
      ∀ r ∈ sampleProgram.relocations, ∃ target bytes, sampleProgram.target? r = some target ∧
        Elf.memoryField? file (0x400000 + 176 + r.offset.toNat) r.size.toNat = some bytes ∧
        (0x400000 + 176 + r.relativeTo) + signedOfLittleEndian bytes =
          0x400000 + 176 + target.value) ∧
    ∃ failure, sampleProgram.executable (ascii "main") = .error failure := by
  have faithful := executable_is_faithful (o := sampleProgram) (by decide) (by decide)
    (List.Pairwise.imp Relocation.disjoint_of_ordered (by decide)) (by decide)
    (by unfold Addressable; decide)
  have evaluated : (sampleProgram.executable (ascii "start")).toOption.map
      (fun file => (file.length, Elf.entryAddress file)) = some (184, 0x4000B0) := by
    decide +kernel
  simp only [Option.map_eq_some_iff, toOption_eq_some_iff, Prod.mk.injEq] at evaluated
  obtain ⟨file, written, length, entry⟩ := evaluated
  obtain ⟨-, -, -, -, -, -, -, -, references⟩ := (faithful (ascii "start")).1 file written
  exact ⟨⟨file, written, length, entry, references⟩,
    (faithful (ascii "main")).2 (Or.inr (by decide))⟩

end Object

end Asm64
