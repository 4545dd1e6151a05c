import Asm64.ObjectFile.Decode
import Asm64.ObjectFile.Encode
import Asm64.Proofs.Success
import Asm64.Proofs.Word

/-!
# Object files that are read back

Every reader undoes the writer of the same field and leaves the bytes after it alone.  What is
read from a file that was written is therefore the object that was written.  Reading fails over
names that are not identifiers, which are checked by the reader alone, and over fields whose end is
past all 64-bit numbers, which the writer takes to be in front of the code.
-/

namespace Asm64

namespace ObjectFile

theorem take?_append (front rest : List UInt8) :
    take? front.length (front ++ rest) = some (front, rest) := by
  simp [take?]

theorem readNumber?_bigEndian (count number : Nat) (rest : List UInt8) :
    readNumber? count (bigEndian count number ++ rest) = some (number % 256 ^ count, rest) := by
  have taken := take?_append (bigEndian count number) rest
  rw [length_bigEndian] at taken
  simp only [readNumber?, taken, Option.map_some]
  rw [ofBigEndian, bigEndian, List.reverse_reverse, ofLittleEndian_littleEndian]

theorem readNumber?_append {count number : Nat} (fits : number < 256 ^ count)
    (rest : List UInt8) :
    readNumber? count (bigEndian count number ++ rest) = some (number, rest) := by
  rw [readNumber?_bigEndian, Nat.mod_eq_of_lt fits]

theorem readByte?_append (byte : UInt8) (rest : List UInt8) :
    readNumber? 1 ([byte] ++ rest) = some (byte.toNat, rest) := by
  simp [readNumber?, take?, ofBigEndian, ofLittleEndian]

theorem readCounted?_append {count : Nat} {content : List UInt8}
    (fits : content.length < 256 ^ count) (rest : List UInt8) :
    readCounted? count (bigEndian count content.length ++ (content ++ rest)) =
      some (content, rest) := by
  rw [readCounted?, readNumber?_append fits]
  exact take?_append content rest

/-! ### Labels and relocations -/

def recordOfLabel (l : Label) : LabelRecord := ⟨l.name, l.value.toNat, flagByte l.isPublic⟩

def recordOfRelocation (r : Relocation) : RelocationRecord :=
  ⟨r.label, r.offset.toNat, r.size.toNat, r.relativeTo.toNat, flagByte r.isExternal⟩

/-- The fields of a relocation as they are read.  The offset may be too large for its bytes. -/
def storedRelocation (r : Relocation) : RelocationRecord :=
  { recordOfRelocation r with offset := r.offset.toNat % 2 ^ 32 }

theorem readLabel?_labelBytes {l : Label} (named : l.name.length < 2 ^ 16)
    (bounded : l.value < 2 ^ 32) (rest : List UInt8) :
    readLabel? (labelBytes l ++ rest) = some (recordOfLabel l, rest) := by
  have offset : l.value.toNat < 256 ^ 4 := by omega
  simp only [readLabel?, labelBytes, nameBytes, List.append_assoc]
  rw [readCounted?_append (by omega)]
  simp only [bind, Option.bind]
  rw [readNumber?_append offset]
  simp only [readByte?_append, UInt8.ofNat_toNat]
  rfl

theorem readRelocation?_relocationBytes {r : Relocation} (named : r.label.length < 2 ^ 16)
    (size : r.size < 2 ^ 8) (relativeTo : r.relativeTo < 2 ^ 32) (rest : List UInt8) :
    readRelocation? (relocationBytes r ++ rest) = some (storedRelocation r, rest) := by
  have sizeFits : r.size.toNat < 2 ^ 8 := by omega
  have relativeToFits : r.relativeTo.toNat < 256 ^ 4 := by omega
  simp only [readRelocation?, relocationBytes, nameBytes, List.append_assoc]
  rw [readCounted?_append (by omega)]
  simp only [bind, Option.bind]
  rw [readNumber?_bigEndian]
  simp only [readByte?_append]
  rw [readNumber?_append relativeToFits]
  simp only [readByte?_append, UInt8.ofNat_toNat, UInt8.toNat_ofNat_of_lt' sizeFits]
  rfl

theorem flagOf_flagByte (flag : Bool) : flagOf (flagByte flag) = flag := by
  cases flag <;> rfl

theorem hasUnknownFlags_flagByte (flag : Bool) : hasUnknownFlags (flagByte flag) = false := by
  cases flag <;> rfl

theorem checkLabel_eq_ok_iff {l read : Label} {codeLength index : Nat} (nonnegative : 0 ≤ l.value)
    (bounded : l.value ≤ codeLength) :
    checkLabel codeLength index (recordOfLabel l) = .ok read ↔
      Text.isIdentifier l.name = true ∧ read = l := by
  have inside : ¬ codeLength < l.value.toNat := by omega
  have value : (l.value.toNat : Int) = l.value := Int.toNat_of_nonneg nonnegative
  simp only [checkLabel, recordOfLabel, hasUnknownFlags_flagByte, flagOf_flagByte, inside, value]
  cases Text.isIdentifier l.name <;> simp [eq_comm (a := l)]

theorem checkRelocation_eq_ok_iff {r read : Relocation} {codeLength index : Nat}
    (size : isFieldSize r.size = true) (offset : 0 ≤ r.offset)
    (bounded : r.offset + r.size ≤ codeLength) (relativeTo : 0 ≤ r.relativeTo) :
    checkRelocation codeLength index (recordOfRelocation r) = .ok read ↔
      Text.isIdentifier r.label = true ∧ read = r := by
  have positive : 0 ≤ r.size := by
    simp only [isFieldSize, decide_eq_true_eq] at size
    omega
  have inside : ¬ codeLength < r.offset.toNat + r.size.toNat := by omega
  have offsetValue : (r.offset.toNat : Int) = r.offset := Int.toNat_of_nonneg offset
  have sizeValue : (r.size.toNat : Int) = r.size := Int.toNat_of_nonneg positive
  have relativeToValue : (r.relativeTo.toNat : Int) = r.relativeTo :=
    Int.toNat_of_nonneg relativeTo
  simp only [checkRelocation, recordOfRelocation, hasUnknownFlags_flagByte, flagOf_flagByte,
    inside, offsetValue, sizeValue, relativeToValue, size]
  cases Text.isIdentifier r.label <;> simp [eq_comm (a := r)]

/-- The field lies in the code, as far as 64-bit numbers tell, and name and offsets have a place in
the format. -/
structure RelocationPasses (codeLength : Nat) (r : Relocation) : Prop where
  named : r.label.length < 2 ^ 16
  size : isFieldSize r.size = true
  offset : 0 ≤ r.offset ∧ r.offset < 2 ^ 63
  bounded : wrap64 (r.offset + r.size) ≤ codeLength
  relativeTo : 0 ≤ r.relativeTo ∧ r.relativeTo < 2 ^ 32

theorem size_of_isFieldSize {size : Int} (isSize : isFieldSize size = true) :
    1 ≤ size ∧ size ≤ 8 := by
  simp only [isFieldSize, decide_eq_true_eq] at isSize
  omega

/-- The reader also rejects the fields that the writer lets pass although they end too far off. -/
theorem checkRelocation_stored_eq_ok_iff {r read : Relocation} {codeLength index : Nat}
    (short : codeLength < 2 ^ 32) (passes : RelocationPasses codeLength r) :
    checkRelocation codeLength index (storedRelocation r) = .ok read ↔
      (Text.isIdentifier r.label = true ∧ r.offset + r.size < 2 ^ 63) ∧ read = r := by
  have sizes := size_of_isFieldSize passes.size
  have offset := passes.offset
  by_cases small : r.offset + r.size < 2 ^ 63
  · have bounded := passes.bounded
    rw [wrap64_eq_self (by omega) small] at bounded
    have kept : storedRelocation r = recordOfRelocation r := by
      rw [storedRelocation, recordOfRelocation, Nat.mod_eq_of_lt (by omega)]
    rw [kept, checkRelocation_eq_ok_iff passes.size offset.1 bounded passes.relativeTo.1]
    simp only [small, and_true]
  · -- What is left of the offset in four bytes is at the end of what they can hold.
    have beyond : codeLength < (storedRelocation r).offset + (storedRelocation r).size := by
      simp only [storedRelocation, recordOfRelocation]
      omega
    have rejected : checkRelocation codeLength index (storedRelocation r) ≠ .ok read := by
      rw [checkRelocation, if_pos beyond]
      split
      · exact nofun
      · split <;> exact nofun
    exact iff_of_false rejected fun accepted => small accepted.1.2

/-! ### Sections -/

theorem sectionFault?_eq_none_iff {Record : Type} {fault? : Record → Option Fault}
    {nameOf : Record → Text} {last : Option Fault} {records : List Record} :
    sectionFault? fault? nameOf last records = none ↔
      last = none ∧ ∀ x ∈ records, fault? x = none ∧ isWritableName (nameOf x) = true := by
  induction records generalizing last with
  | nil => simp [sectionFault?]
  | cons x rest inductionHypothesis =>
      rw [sectionFault?, List.forall_mem_cons]
      cases fault : fault? x with
      | some reason => simp
      | none =>
          simp only [inductionHypothesis]
          cases isWritableName (nameOf x) <;> simp

theorem sectionBytes_eq_ok_iff {content bytes : List UInt8} :
    sectionBytes content = .ok bytes ↔
      content.length < 2 ^ 32 ∧ bytes = bigEndian 4 content.length ++ content := by
  rw [sectionBytes, Nat.pow_eq]
  split
  · rename_i fits
    rw [Except.ok.injEq, eq_comm, and_iff_right fits]
  · rename_i tooLong
    constructor
    · intro failed
      cases failed
    · rintro ⟨fits, -⟩
      exact absurd fits tooLong

/-- The label lies in the code, and its name has a place in the format. -/
def LabelFits (codeLength : Nat) (l : Label) : Prop :=
  l.name.length < 2 ^ 16 ∧ 0 ≤ l.value ∧ l.value ≤ codeLength

/-- The field lies in the code, and name and offsets have a place in the format. -/
def RelocationFits (codeLength : Nat) (r : Relocation) : Prop :=
  r.label.length < 2 ^ 16 ∧ isFieldSize r.size = true ∧ 0 ≤ r.offset ∧
    r.offset + r.size ≤ codeLength ∧ 0 ≤ r.relativeTo ∧ r.relativeTo < 2 ^ 32

theorem readLabels_eq_ok_iff {codeLength index : Nat} {labels read : List Label}
    (writable : codeLength < 2 ^ 32) (fits : ∀ l ∈ labels, LabelFits codeLength l) :
    readLabels codeLength index (labels.flatMap labelBytes) = .ok read ↔
      (∀ l ∈ labels, Text.isIdentifier l.name = true) ∧ read = labels := by
  induction labels generalizing index read with
  | nil =>
      rw [List.flatMap_nil, readLabels, List.isEmpty_nil, if_pos rfl, Except.ok.injEq, eq_comm]
      simp
  | cons l rest inductionHypothesis =>
      rw [List.forall_mem_cons] at fits
      obtain ⟨⟨named, nonnegative, bounded⟩, restFits⟩ := fits
      have first := readLabel?_labelBytes named (by omega) (rest.flatMap labelBytes)
      have nonempty : (labelBytes l ++ rest.flatMap labelBytes).isEmpty = false := by
        simp [labelBytes]
      rw [List.flatMap_cons, readLabels, nonempty]
      simp only [Bool.false_eq_true, ↓reduceIte]
      split
      · rename_i missing
        rw [first] at missing
        cases missing
      · rename_i record others found
        rw [first] at found
        cases found
        simp only [bind_eq_ok_iff, pure_eq_ok_iff, checkLabel_eq_ok_iff nonnegative bounded,
          inductionHypothesis restFits, List.forall_mem_cons]
        constructor
        · rintro ⟨_, ⟨identifier, rfl⟩, _, ⟨identifiers, rfl⟩, rfl⟩
          exact ⟨⟨identifier, identifiers⟩, rfl⟩
        · rintro ⟨⟨identifier, identifiers⟩, rfl⟩
          exact ⟨l, ⟨identifier, rfl⟩, rest, ⟨identifiers, rfl⟩, rfl⟩

theorem readRelocations_eq_ok_iff {codeLength index : Nat} {relocations read : List Relocation}
    (short : codeLength < 2 ^ 32) (passes : ∀ r ∈ relocations, RelocationPasses codeLength r) :
    readRelocations codeLength index (relocations.flatMap relocationBytes) = .ok read ↔
      (∀ r ∈ relocations, Text.isIdentifier r.label = true ∧ r.offset + r.size < 2 ^ 63) ∧
        read = relocations := by
  induction relocations generalizing index read with
  | nil =>
      rw [List.flatMap_nil, readRelocations, List.isEmpty_nil, if_pos rfl, Except.ok.injEq, eq_comm]
      simp
  | cons r rest inductionHypothesis =>
      rw [List.forall_mem_cons] at passes
      have sizes := size_of_isFieldSize passes.1.size
      have first := readRelocation?_relocationBytes passes.1.named (by omega)
        passes.1.relativeTo.2 (rest.flatMap relocationBytes)
      have nonempty : (relocationBytes r ++ rest.flatMap relocationBytes).isEmpty = false := by
        simp [relocationBytes]
      rw [List.flatMap_cons, readRelocations, nonempty]
      simp only [Bool.false_eq_true, ↓reduceIte]
      split
      · rename_i missing
        rw [first] at missing
        cases missing
      · rename_i record others found
        rw [first] at found
        cases found
        simp only [bind_eq_ok_iff, pure_eq_ok_iff,
          checkRelocation_stored_eq_ok_iff short passes.1, inductionHypothesis passes.2,
          List.forall_mem_cons]
        constructor
        · rintro ⟨_, ⟨accepted, rfl⟩, _, ⟨othersAccepted, rfl⟩, rfl⟩
          exact ⟨⟨accepted, othersAccepted⟩, rfl⟩
        · rintro ⟨⟨accepted, othersAccepted⟩, rfl⟩
          exact ⟨r, ⟨accepted, rfl⟩, rest, ⟨othersAccepted, rfl⟩, rfl⟩

/-! ### Whole files -/

/-- What stands between the version and the digest. -/
def sections (o : Object) : List UInt8 :=
  bigEndian 4 o.code.length ++ (o.code ++
    (bigEndian 4 (o.labels.flatMap labelBytes).length ++ (o.labels.flatMap labelBytes ++
      (bigEndian 4 (o.relocations.flatMap relocationBytes).length ++
        (o.relocations.flatMap relocationBytes ++ [])))))

structure Written (o : Object) (file : List UInt8) : Prop where
  code : o.code.length < 2 ^ 32
  labels : ∀ l ∈ o.labels,
    labelFault? o.code.length l = none ∧ isWritableName l.name = true
  labelSection : (o.labels.flatMap labelBytes).length < 2 ^ 32
  relocations : ∀ r ∈ o.relocations,
    relocationFault? o.code.length r = none ∧ isWritableName r.label = true
  relocationSection : (o.relocations.flatMap relocationBytes).length < 2 ^ 32
  file : file = magic ++ version :: sections o ++
    Sha256.digest (magic ++ version :: sections o)

theorem checkedSection_eq_ok_iff {Record : Type} {fault? : Record → Option Fault}
    {nameOf : Record → Text} {records : List Record} {content bytes : List UInt8} :
    (match sectionFault? fault? nameOf none records with
      | some fault => Except.error fault
      | none => sectionBytes content) = .ok bytes ↔
      (∀ x ∈ records, fault? x = none ∧ isWritableName (nameOf x) = true) ∧
        content.length < 2 ^ 32 ∧ bytes = bigEndian 4 content.length ++ content := by
  split
  · rename_i fault found
    simp only [reduceCtorEq, false_iff]
    rintro ⟨faultless, -⟩
    rw [sectionFault?_eq_none_iff.mpr ⟨rfl, faultless⟩] at found
    cases found
  · rename_i faultless
    rw [sectionBytes_eq_ok_iff]
    exact ⟨fun written => ⟨(sectionFault?_eq_none_iff.mp faultless).2, written⟩, And.right⟩

theorem labelSection_eq_ok_iff {o : Object} {bytes : List UInt8} :
    labelSection o = .ok bytes ↔
      (∀ l ∈ o.labels, labelFault? o.code.length l = none ∧ isWritableName l.name = true) ∧
        (o.labels.flatMap labelBytes).length < 2 ^ 32 ∧
        bytes = bigEndian 4 (o.labels.flatMap labelBytes).length ++ o.labels.flatMap labelBytes :=
  checkedSection_eq_ok_iff

theorem relocationSection_eq_ok_iff {o : Object} {bytes : List UInt8} :
    relocationSection o = .ok bytes ↔
      (∀ r ∈ o.relocations,
        relocationFault? o.code.length r = none ∧ isWritableName r.label = true) ∧
        (o.relocations.flatMap relocationBytes).length < 2 ^ 32 ∧
        bytes = bigEndian 4 (o.relocations.flatMap relocationBytes).length ++
          o.relocations.flatMap relocationBytes :=
  checkedSection_eq_ok_iff

theorem written_of_encode {o : Object} {file : List UInt8} (encoded : encode o = .ok file) :
    Written o file := by
  unfold encode at encoded
  split at encoded
  · cases encoded
  · rename_i short
    simp only [bind_eq_ok_iff, mapError_eq_ok_iff, pure_eq_ok_iff] at encoded
    obtain ⟨bytes, written, rfl⟩ := encoded
    simp only [body, bind_eq_ok_iff, pure_eq_ok_iff, sectionBytes_eq_ok_iff,
      labelSection_eq_ok_iff, relocationSection_eq_ok_iff] at written
    obtain ⟨_, ⟨codeLength, rfl⟩, _, ⟨labelsFaultless, labelsLength, rfl⟩, _,
      ⟨faultless, length, rfl⟩, rfl⟩ := written
    refine ⟨codeLength, labelsFaultless, labelsLength, faultless, length, ?_⟩
    simp only [sections, List.append_assoc, List.append_nil]

theorem encode_of_written {o : Object} {file : List UInt8} (written : Written o file) :
    encode o = .ok file := by
  have short := written.code
  have code := sectionBytes_eq_ok_iff.mpr ⟨written.code, rfl⟩
  have labels := labelSection_eq_ok_iff.mpr ⟨written.labels, written.labelSection, rfl⟩
  have relocations :=
    relocationSection_eq_ok_iff.mpr ⟨written.relocations, written.relocationSection, rfl⟩
  have whole : body o = .ok (magic ++ version :: sections o) := by
    rw [body, code, labels, relocations]
    simp [sections, bind, Except.bind, pure, Except.pure]
  rw [encode, Nat.pow_eq, whole, if_neg (by omega), written.file]
  rfl

theorem isObject_of_written {o : Object} {file : List UInt8} (written : Written o file) :
    isObject file = true := by
  rw [written.file, isObject, List.append_assoc, List.isPrefixOf_iff_prefix]
  exact List.prefix_append _ _

/-- The reader finds the sections of a file that was written. -/
theorem decode_of_written {o : Object} {file : List UInt8} (written : Written o file) :
    decode file = decodeSections (sections o) := by
  have digestLength := Sha256.length_digest (magic ++ version :: sections o)
  have length : file.length - Sha256.digestLength = (magic ++ version :: sections o).length := by
    rw [written.file, List.length_append, digestLength]
    omega
  have long : ¬ file.length < minLength := by
    rw [written.file, List.length_append, digestLength]
    simp only [minLength, sections, List.length_append, List.length_cons, length_bigEndian]
    omega
  have marked := isObject_of_written written
  have body : file.take (magic ++ version :: sections o).length =
      magic ++ version :: sections o := by
    rw [written.file, List.take_left]
  have digest : file.drop (magic ++ version :: sections o).length =
      Sha256.digest (magic ++ version :: sections o) := by
    rw [written.file, List.drop_left]
  simp only [decode, long, marked, length, body, digest, List.drop_left]
  simp

theorem readSections?_sections {o : Object} {file : List UInt8} (written : Written o file) :
    decodeSections.readSections? (sections o) =
      some (o.code, o.labels.flatMap labelBytes, o.relocations.flatMap relocationBytes, []) := by
  have code := written.code
  have labels := written.labelSection
  have relocations := written.relocationSection
  unfold decodeSections.readSections? sections
  rw [readCounted?_append (by omega)]
  simp only [bind, Option.bind]
  rw [readCounted?_append (by omega)]
  simp only
  rw [readCounted?_append (by omega)]
  rfl

theorem relocationPasses_of_written {codeLength : Nat} {r : Relocation}
    (faultless : relocationFault? codeLength r = none) (named : isWritableName r.label = true)
    (offset : r.offset < 2 ^ 63) : RelocationPasses codeLength r := by
  simp only [isWritableName, decide_eq_true_eq] at named
  rw [relocationFault?, Int.pow_eq] at faultless
  split at faultless
  · cases faultless
  · rename_i size
    split at faultless
    · cases faultless
    · exact ⟨named.2, by simpa using size, by omega, by omega, by omega⟩

/-- A file that was written is read as the object it was written from, unless a name is not an
identifier or a field ends past all 64-bit numbers. -/
theorem decode_eq_ok_iff {o read : Object} {file : List UInt8} (encoded : encode o = .ok file)
    (offsets : ∀ r ∈ o.relocations, r.offset < 2 ^ 63) :
    decode file = .ok read ↔
      ((∀ l ∈ o.labels, Text.isIdentifier l.name = true) ∧
        ∀ r ∈ o.relocations, Text.isIdentifier r.label = true ∧ r.offset + r.size < 2 ^ 63) ∧
      read = o := by
  have written := written_of_encode encoded
  have labelsFit : ∀ l ∈ o.labels, LabelFits o.code.length l := by
    intro l member
    obtain ⟨faultless, named⟩ := written.labels l member
    simp only [labelFault?, ite_eq_right_iff, reduceCtorEq, imp_false, not_or, not_lt]
      at faultless
    simp only [isWritableName, decide_eq_true_eq] at named
    exact ⟨named.2, faultless⟩
  have relocationsPass : ∀ r ∈ o.relocations, RelocationPasses o.code.length r := by
    intro r member
    obtain ⟨faultless, named⟩ := written.relocations r member
    exact relocationPasses_of_written faultless named (offsets r member)
  rw [decode_of_written written, decodeSections, readSections?_sections written]
  simp only [List.isEmpty_nil, Bool.not_true, Bool.false_eq_true, ↓reduceIte, bind_eq_ok_iff,
    pure_eq_ok_iff, readLabels_eq_ok_iff written.code labelsFit,
    readRelocations_eq_ok_iff written.code relocationsPass]
  constructor
  · rintro ⟨_, ⟨labelNames, rfl⟩, _, ⟨relocationNames, rfl⟩, rfl⟩
    exact ⟨⟨labelNames, relocationNames⟩, rfl⟩
  · rintro ⟨⟨labelNames, relocationNames⟩, rfl⟩
    exact ⟨_, ⟨labelNames, rfl⟩, _, ⟨relocationNames, rfl⟩, rfl⟩

/-- Fields in the code do not end too far off. -/
theorem decode_eq_ok_iff_of_encode {o read : Object} {file : List UInt8}
    (encoded : encode o = .ok file)
    (inCode : ∀ r ∈ o.relocations, r.offset + r.size ≤ o.code.length) :
    decode file = .ok read ↔
      ((∀ l ∈ o.labels, Text.isIdentifier l.name = true) ∧
        ∀ r ∈ o.relocations, Text.isIdentifier r.label = true) ∧ read = o := by
  have written := written_of_encode encoded
  have short := written.code
  have ends : ∀ r ∈ o.relocations, r.offset + r.size < 2 ^ 63 ∧ r.offset < 2 ^ 63 := by
    intro r member
    have bounded := inCode r member
    obtain ⟨faultless, -⟩ := written.relocations r member
    rw [relocationFault?] at faultless
    split at faultless
    · cases faultless
    · rename_i size
      rw [Bool.not_eq_true, Bool.not_eq_false'] at size
      have sizes := size_of_isFieldSize size
      omega
  rw [decode_eq_ok_iff encoded fun r member => (ends r member).2]
  refine and_congr_left fun _ => and_congr_right fun _ => ?_
  exact forall₂_congr fun r member => and_iff_left (ends r member).1

end ObjectFile

end Asm64
