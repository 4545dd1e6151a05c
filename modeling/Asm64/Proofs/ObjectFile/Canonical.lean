import Asm64.Proofs.ObjectFile.RoundTrip

/-!
# Files and objects correspond

Whatever a reader accepts is what the writer of the same field writes.  A file that is accepted is
therefore the file of the object that is read from it.  The objects that have a file are those that
the format has room for and whose names are identifiers.
-/

namespace Asm64

theorem littleEndian_ofLittleEndian (bytes : List UInt8) :
    littleEndian bytes.length (ofLittleEndian bytes) = bytes := by
  induction bytes with
  | nil => rfl
  | cons byte rest inductionHypothesis =>
      have small := byte.toNat_lt
      have low : UInt8.ofNat (byte.toNat + 256 * ofLittleEndian rest) = byte := by
        apply UInt8.toNat_inj.mp
        rw [UInt8.toNat_ofNat']
        omega
      have high : (byte.toNat + 256 * ofLittleEndian rest) / 256 = ofLittleEndian rest := by omega
      rw [List.length_cons, littleEndian, ofLittleEndian, low, high, inductionHypothesis]

theorem ofLittleEndian_lt (bytes : List UInt8) : ofLittleEndian bytes < 256 ^ bytes.length := by
  induction bytes with
  | nil => simp [ofLittleEndian]
  | cons byte rest inductionHypothesis =>
      have small := byte.toNat_lt
      rw [ofLittleEndian, List.length_cons, pow_succ']
      omega

theorem bigEndian_ofBigEndian (bytes : List UInt8) :
    bigEndian bytes.length (ofBigEndian bytes) = bytes := by
  have reversed := littleEndian_ofLittleEndian bytes.reverse
  rw [List.length_reverse] at reversed
  rw [bigEndian, ofBigEndian, reversed, List.reverse_reverse]

namespace ObjectFile

/-! ### Readers leave nothing out -/

theorem eq_append_of_take? {count : Nat} {bytes field rest : List UInt8}
    (taken : take? count bytes = some (field, rest)) :
    field.length = count ∧ bytes = field ++ rest := by
  unfold take? at taken
  split at taken
  · rename_i enough
    cases taken
    exact ⟨enough, (List.take_append_drop count bytes).symm⟩
  · cases taken

theorem eq_append_of_readNumber? {count number : Nat} {bytes rest : List UInt8}
    (read : readNumber? count bytes = some (number, rest)) :
    number < 256 ^ count ∧ bytes = bigEndian count number ++ rest := by
  simp only [readNumber?, Option.map_eq_some_iff, Prod.exists, Prod.mk.injEq] at read
  obtain ⟨field, _, taken, rfl, rfl⟩ := read
  obtain ⟨rfl, rfl⟩ := eq_append_of_take? taken
  refine ⟨?_, by rw [bigEndian_ofBigEndian]⟩
  have small := ofLittleEndian_lt field.reverse
  rwa [List.length_reverse] at small

theorem eq_append_of_readCounted? {count : Nat} {bytes content rest : List UInt8}
    (read : readCounted? count bytes = some (content, rest)) :
    content.length < 256 ^ count ∧ bytes = bigEndian count content.length ++ (content ++ rest) := by
  simp only [readCounted?, bind, Option.bind_eq_some_iff, Prod.exists] at read
  obtain ⟨length, later, number, taken⟩ := read
  obtain ⟨rfl, rfl⟩ := eq_append_of_take? taken
  exact eq_append_of_readNumber? number

theorem eq_append_of_readLabel? {l : Label} {bytes rest : List UInt8}
    (read : readLabel? bytes = some (recordOfLabel l, rest)) :
    l.name.length < 2 ^ 16 ∧ bytes = labelBytes l ++ rest := by
  simp only [readLabel?, recordOfLabel, bind, Option.bind_eq_some_iff, Prod.exists, pure,
    Option.some.injEq, Prod.mk.injEq, LabelRecord.mk.injEq] at read
  obtain ⟨_, _, name, _, _, offset, _, _, flags, ⟨rfl, rfl, flag⟩, rfl⟩ := read
  obtain ⟨named, rfl⟩ := eq_append_of_readCounted? name
  obtain ⟨-, rfl⟩ := eq_append_of_readNumber? offset
  obtain ⟨-, rfl⟩ := eq_append_of_readNumber? flags
  refine ⟨named, ?_⟩
  simp [labelBytes, nameBytes, ← flag, bigEndian, littleEndian]

theorem eq_append_of_readRelocation? {r : Relocation} {bytes rest : List UInt8}
    (read : readRelocation? bytes = some (recordOfRelocation r, rest)) :
    r.label.length < 2 ^ 16 ∧ r.relativeTo < 2 ^ 32 ∧ bytes = relocationBytes r ++ rest := by
  simp only [readRelocation?, recordOfRelocation, bind, Option.bind_eq_some_iff, Prod.exists, pure,
    Option.some.injEq, Prod.mk.injEq, RelocationRecord.mk.injEq] at read
  obtain ⟨_, _, label, _, _, offset, _, _, size, _, _, relativeTo, _, _, flags,
    ⟨rfl, rfl, rfl, rfl, flag⟩, rfl⟩ := read
  obtain ⟨named, rfl⟩ := eq_append_of_readCounted? label
  obtain ⟨-, rfl⟩ := eq_append_of_readNumber? offset
  obtain ⟨-, rfl⟩ := eq_append_of_readNumber? size
  obtain ⟨narrow, rfl⟩ := eq_append_of_readNumber? relativeTo
  obtain ⟨-, rfl⟩ := eq_append_of_readNumber? flags
  refine ⟨named, by omega, ?_⟩
  simp [relocationBytes, nameBytes, ← flag, bigEndian, littleEndian]

/-! ### What the checks let pass -/

theorem flagByte_flagOf {flags : UInt8} (known : hasUnknownFlags flags = false) :
    flagByte (flagOf flags) = flags := by
  have all : ∀ number : Fin 256, hasUnknownFlags (UInt8.ofNat number) = false →
      flagByte (flagOf (UInt8.ofNat number)) = UInt8.ofNat number := by decide +kernel
  have byte := all ⟨flags.toNat, flags.toNat_lt⟩
  rw [UInt8.ofNat_toNat] at byte
  exact byte known

theorem of_checkLabel {codeLength index : Nat} {record : LabelRecord} {l : Label}
    (checked : checkLabel codeLength index record = .ok l) :
    Text.isIdentifier l.name = true ∧ 0 ≤ l.value ∧ l.value ≤ codeLength ∧
      recordOfLabel l = record := by
  unfold checkLabel at checked
  split at checked
  · cases checked
  · rename_i identifier
    split at checked
    · cases checked
    · rename_i inside
      split at checked
      · cases checked
      · rename_i known
        cases checked
        refine ⟨by simpa using identifier, by simp, by simpa using inside, ?_⟩
        simp [recordOfLabel, flagByte_flagOf (by simpa using known)]

theorem of_checkRelocation {codeLength index : Nat} {record : RelocationRecord} {r : Relocation}
    (checked : checkRelocation codeLength index record = .ok r) :
    Text.isIdentifier r.label = true ∧ isFieldSize r.size = true ∧ 0 ≤ r.offset ∧
      r.offset + r.size ≤ codeLength ∧ 0 ≤ r.relativeTo ∧ recordOfRelocation r = record := by
  unfold checkRelocation at checked
  split at checked
  · cases checked
  · rename_i identifier
    split at checked
    · cases checked
    · rename_i size
      split at checked
      · cases checked
      · rename_i inside
        split at checked
        · cases checked
        · rename_i known
          cases checked
          refine ⟨by simpa using identifier, by simpa using size, by simp, ?_, by simp, ?_⟩
          · simp only
            omega
          · simp [recordOfRelocation, flagByte_flagOf (by simpa using known)]

/-! ### Sections and files -/

theorem of_readLabels {codeLength index : Nat} {bytes : List UInt8} {labels : List Label}
    (read : readLabels codeLength index bytes = .ok labels) :
    (∀ l ∈ labels, Text.isIdentifier l.name = true ∧ LabelFits codeLength l) ∧
      bytes = labels.flatMap labelBytes := by
  induction labels generalizing index bytes with
  | nil =>
      rw [readLabels] at read
      split at read
      · rename_i empty
        exact ⟨by simp, List.isEmpty_iff.mp empty⟩
      · split at read
        · cases read
        · simp only [bind_eq_ok_iff, pure_eq_ok_iff, reduceCtorEq, and_false, exists_false] at read
  | cons l labels inductionHypothesis =>
      rw [readLabels] at read
      split at read
      · cases read
      · split at read
        · cases read
        · rename_i record rest found
          simp only [bind_eq_ok_iff, pure_eq_ok_iff, List.cons.injEq] at read
          obtain ⟨_, checked, _, later, rfl, rfl⟩ := read
          obtain ⟨identifier, nonnegative, bounded, rfl⟩ := of_checkLabel checked
          obtain ⟨named, rfl⟩ := eq_append_of_readLabel? found
          obtain ⟨valid, rfl⟩ := inductionHypothesis later
          refine ⟨?_, rfl⟩
          rw [List.forall_mem_cons]
          exact ⟨⟨identifier, named, nonnegative, bounded⟩, valid⟩

theorem of_readRelocations {codeLength index : Nat} {bytes : List UInt8}
    {relocations : List Relocation}
    (read : readRelocations codeLength index bytes = .ok relocations) :
    (∀ r ∈ relocations, Text.isIdentifier r.label = true ∧ RelocationFits codeLength r) ∧
      bytes = relocations.flatMap relocationBytes := by
  induction relocations generalizing index bytes with
  | nil =>
      rw [readRelocations] at read
      split at read
      · rename_i empty
        exact ⟨by simp, List.isEmpty_iff.mp empty⟩
      · split at read
        · cases read
        · simp only [bind_eq_ok_iff, pure_eq_ok_iff, reduceCtorEq, and_false, exists_false] at read
  | cons r relocations inductionHypothesis =>
      rw [readRelocations] at read
      split at read
      · cases read
      · split at read
        · cases read
        · rename_i record rest found
          simp only [bind_eq_ok_iff, pure_eq_ok_iff, List.cons.injEq] at read
          obtain ⟨_, checked, _, later, rfl, rfl⟩ := read
          obtain ⟨identifier, size, offset, bounded, nonnegative, rfl⟩ := of_checkRelocation checked
          obtain ⟨named, relativeTo, rfl⟩ := eq_append_of_readRelocation? found
          obtain ⟨valid, rfl⟩ := inductionHypothesis later
          refine ⟨?_, rfl⟩
          rw [List.forall_mem_cons]
          exact ⟨⟨identifier, named, size, offset, bounded, nonnegative, relativeTo⟩, valid⟩

/-- An object that the format has room for. -/
structure Valid (o : Object) : Prop where
  code : o.code.length < 2 ^ 32
  labels : ∀ l ∈ o.labels, Text.isIdentifier l.name = true ∧ LabelFits o.code.length l
  labelSection : (o.labels.flatMap labelBytes).length < 2 ^ 32
  relocations : ∀ r ∈ o.relocations,
    Text.isIdentifier r.label = true ∧ RelocationFits o.code.length r
  relocationSection : (o.relocations.flatMap relocationBytes).length < 2 ^ 32

instance (codeLength : Nat) (l : Label) : Decidable (LabelFits codeLength l) :=
  inferInstanceAs (Decidable (_ ∧ _ ∧ _))

instance (codeLength : Nat) (r : Relocation) : Decidable (RelocationFits codeLength r) :=
  inferInstanceAs (Decidable (_ ∧ _ ∧ _ ∧ _ ∧ _ ∧ _))

instance (o : Object) : Decidable (Valid o) :=
  decidable_of_iff
    (o.code.length < 2 ^ 32 ∧
      (∀ l ∈ o.labels, Text.isIdentifier l.name = true ∧ LabelFits o.code.length l) ∧
      (o.labels.flatMap labelBytes).length < 2 ^ 32 ∧
      (∀ r ∈ o.relocations, Text.isIdentifier r.label = true ∧ RelocationFits o.code.length r) ∧
      (o.relocations.flatMap relocationBytes).length < 2 ^ 32)
    ⟨fun ⟨code, labels, labelSection, relocations, relocationSection⟩ =>
      ⟨code, labels, labelSection, relocations, relocationSection⟩,
    fun ⟨code, labels, labelSection, relocations, relocationSection⟩ =>
      ⟨code, labels, labelSection, relocations, relocationSection⟩⟩

theorem of_decodeSections {bytes : List UInt8} {o : Object}
    (decoded : decodeSections bytes = .ok o) : Valid o ∧ bytes = sections o := by
  unfold decodeSections at decoded
  split at decoded
  · cases decoded
  · rename_i code labelContent relocationContent trailing read
    split at decoded
    · cases decoded
    · rename_i complete
      have empty : trailing = [] := by simpa using complete
      subst empty
      simp only [bind_eq_ok_iff, pure_eq_ok_iff] at decoded
      obtain ⟨labels, labelsRead, relocations, relocationsRead, rfl⟩ := decoded
      obtain ⟨labelsValid, rfl⟩ := of_readLabels labelsRead
      obtain ⟨relocationsValid, rfl⟩ := of_readRelocations relocationsRead
      simp only [decodeSections.readSections?, bind, Option.bind_eq_some_iff, Prod.exists, pure,
        Option.some.injEq, Prod.mk.injEq] at read
      obtain ⟨_, _, first, _, _, second, _, _, third, rfl, rfl, rfl, rfl⟩ := read
      obtain ⟨codeLength, rfl⟩ := eq_append_of_readCounted? first
      obtain ⟨labelLength, rfl⟩ := eq_append_of_readCounted? second
      obtain ⟨relocationLength, rfl⟩ := eq_append_of_readCounted? third
      exact ⟨⟨codeLength, labelsValid, labelLength, relocationsValid, relocationLength⟩, rfl⟩

def fileOf (o : Object) : List UInt8 :=
  magic ++ version :: sections o ++ Sha256.digest (magic ++ version :: sections o)

theorem of_decode {file : List UInt8} {o : Object} (decoded : decode file = .ok o) :
    Valid o ∧ file = fileOf o := by
  unfold decode at decoded
  dsimp only at decoded
  split at decoded
  · cases decoded
  · rename_i long
    split at decoded
    · cases decoded
    · rename_i marked
      split at decoded
      · cases decoded
      · rename_i digest
        split at decoded
        · cases decoded
        · rename_i found rest afterMagic
          split at decoded
          · cases decoded
          · rename_i supported
            obtain ⟨valid, rfl⟩ := of_decodeSections decoded
            have marked : magic <+: file.take (file.length - Sha256.digestLength) := by
              rw [List.prefix_take_iff, ← List.isPrefixOf_iff_prefix]
              simp only [minLength] at long
              exact ⟨by simpa [isObject] using marked, by omega⟩
            obtain ⟨later, body⟩ := marked
            rw [← body, List.drop_left] at afterMagic
            rw [afterMagic, not_not.mp supported] at body
            rw [← body] at digest
            refine ⟨valid, ?_⟩
            calc file = file.take (file.length - Sha256.digestLength) ++
                  file.drop (file.length - Sha256.digestLength) :=
                (List.take_append_drop _ file).symm
              _ = fileOf o := by rw [← not_not.mp digest, ← body]; rfl

/-! ### Objects that can be written -/

theorem isWritableName_of_identifier {name : Text} (identifier : Text.isIdentifier name = true)
    (short : name.length < 2 ^ 16) : isWritableName name = true := by
  cases name with
  | nil => simp [Text.isIdentifier] at identifier
  | cons first rest =>
      rw [isWritableName, decide_eq_true_iff]
      exact ⟨Nat.succ_pos _, short⟩

theorem labelFault?_eq_none {codeLength : Nat} {l : Label} (fits : LabelFits codeLength l) :
    labelFault? codeLength l = none := by
  obtain ⟨-, nonnegative, bounded⟩ := fits
  rw [labelFault?, if_neg (by omega)]

theorem relocationFault?_eq_none {codeLength : Nat} {r : Relocation} (short : codeLength < 2 ^ 32)
    (fits : RelocationFits codeLength r) : relocationFault? codeLength r = none := by
  obtain ⟨-, size, offset, bounded, nonnegative, relativeTo⟩ := fits
  have positive : 0 ≤ r.size := by
    simp only [isFieldSize, decide_eq_true_eq] at size
    omega
  have fieldEnd : wrap64 (r.offset + r.size) = r.offset + r.size := by
    apply wrap64_eq_self <;> omega
  rw [relocationFault?, Int.pow_eq, size, fieldEnd, if_neg (by simp), if_neg (by omega)]

theorem encode_of_valid {o : Object} (valid : Valid o) : encode o = .ok (fileOf o) := by
  refine encode_of_written ⟨valid.code, ?_, valid.labelSection, ?_, valid.relocationSection, rfl⟩
  · intro l member
    obtain ⟨identifier, fits⟩ := valid.labels l member
    exact ⟨labelFault?_eq_none fits, isWritableName_of_identifier identifier fits.1⟩
  · intro r member
    obtain ⟨identifier, fits⟩ := valid.relocations r member
    exact ⟨relocationFault?_eq_none valid.code fits,
      isWritableName_of_identifier identifier fits.1⟩

/-- Each valid object has a file that is read as that object, and each file that is accepted is the
file of a valid object. -/
theorem valid_objects_have_accepted_files :
    (∀ o, Valid o → ∃ file, encode o = .ok file ∧ decode file = .ok o) ∧
      ∀ file o, decode file = .ok o → Valid o ∧ encode o = .ok file := by
  constructor
  · intro o valid
    have encoded := encode_of_valid valid
    refine ⟨fileOf o, encoded, ?_⟩
    rw [decode_eq_ok_iff_of_encode encoded fun r member => (valid.relocations r member).2.2.2.2.1]
    exact ⟨⟨fun l member => (valid.labels l member).1,
      fun r member => (valid.relocations r member).1⟩, rfl⟩
  · intro file o decoded
    obtain ⟨valid, rfl⟩ := of_decode decoded
    exact ⟨valid, encode_of_valid valid⟩

/-- An object with a label behind its code, and with fields of two sizes. -/
def sampleObject : Object :=
  ⟨[0xEB, 0, 0x03, 0x05, 0, 0, 0, 0], [⟨ascii "start", 0, true⟩, ⟨ascii "end", 8, false⟩],
    [⟨ascii "start", 1, 1, 2, false⟩, ⟨ascii "data.1", 4, 4, 8, true⟩]⟩

theorem valid_objects_have_accepted_files_sample :
    Valid sampleObject ∧ ∃ file, encode sampleObject = .ok file ∧
      decode file = .ok sampleObject ∧ Valid sampleObject ∧ encode sampleObject = .ok file := by
  have valid : Valid sampleObject :=
    { code := by decide
      labels := by unfold LabelFits; decide
      labelSection := by decide
      relocations := by unfold RelocationFits; decide
      relocationSection := by decide }
  obtain ⟨file, encoded, decoded⟩ := valid_objects_have_accepted_files.1 sampleObject valid
  exact ⟨valid, file, encoded, decoded, valid_objects_have_accepted_files.2 file _ decoded⟩

end ObjectFile

end Asm64
