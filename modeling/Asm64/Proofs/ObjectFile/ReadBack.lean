import Asm64.Proofs.InPlace
import Asm64.Proofs.ObjectFile.Canonical

/-!
# Files that are written and files that are read

A file is handed over in one go, and nothing is if the object has no place in the format.  The
writer lets two things pass that the reader rejects.  It asks of a name only that it is neither
empty nor too long, where the reader asks for an identifier; and it adds the size of a field to its
offset as 64-bit numbers, so that the end of a field may wrap around and seem to be in the code.
-/

namespace Asm64

/-! ### Objects that can be read back -/

/-- What the reader of an object file wants of an object and the writer does not make sure of. -/
structure Object.Readable (o : Object) : Prop where
  labels : ∀ l ∈ o.labels, Text.isIdentifier l.name = true
  relocations : ∀ r ∈ o.relocations,
    Text.isIdentifier r.label = true ∧ r.offset + r.size ≤ o.code.length

theorem Object.Readable.decode_of_encode {o : Object} (readable : o.Readable) {file : List UInt8}
    (encoded : ObjectFile.encode o = .ok file) : ObjectFile.decode file = .ok o := by
  rw [ObjectFile.decode_eq_ok_iff_of_encode encoded fun r member =>
    (readable.relocations r member).2]
  exact ⟨⟨readable.labels, fun r member => (readable.relocations r member).1⟩, rfl⟩

namespace ObjectFile

open InPlace

theorem readable_of_valid {o : Object} (valid : Valid o) : o.Readable where
  labels := fun l member => (valid.labels l member).1
  relocations := by
    intro r member
    obtain ⟨identifier, -, -, -, bounded, -⟩ := valid.relocations r member
    exact ⟨identifier, bounded⟩

/-! ### Handing a file over -/

section Writers

variable {State Failure : Type} (write : List UInt8 → InPlace State Failure Unit)

/-- Encodes an object and hands its file to a writer, which may fail. -/
def encodeTo (o : Object) : InPlace State (EncodeError ⊕ Failure) Unit :=
  match encode o with
  | .ok file => onPart id (fun _ written => written) .inr (write file)
  | .error e => throw (.inl e)

theorem runOn_encodeTo_of_error {o : Object} {e : EncodeError} (failed : encode o = .error e)
    (s : State) : runOn (encodeTo write o) s = (.error (.inl e), s) := by
  rw [encodeTo, failed]
  rfl

theorem runOn_encodeTo_of_ok {o : Object} {file : List UInt8} (encoded : encode o = .ok file)
    (s : State) :
    runOn (encodeTo write o) s =
      ((runOn (write file) s).1.mapError .inr, (runOn (write file) s).2) := by
  rw [encodeTo, encoded]
  rfl

end Writers

/-! ### Reading a file back -/

/-- An object with a file is read back from it if and only if its names are identifiers and its
fields lie in the code, and no other object is ever read from it.  An object without a file leaves
the writer alone. -/
theorem files_are_read_back (o : Object) (offsets : ∀ r ∈ o.relocations, r.offset < 2 ^ 63) :
    (∀ e, encode o = .error e →
      ∀ {State Failure : Type} (write : List UInt8 → InPlace State Failure Unit) (s : State),
        runOn (encodeTo write o) s = (.error (.inl e), s)) ∧
    ∀ file, encode o = .ok file →
      (∀ {State Failure : Type} (write : List UInt8 → InPlace State Failure Unit) (s : State),
        runOn (encodeTo write o) s =
          ((runOn (write file) s).1.mapError .inr, (runOn (write file) s).2)) ∧
      (decode file = .ok o ↔ o.Readable) ∧
      ∀ read, decode file = .ok read → read = o := by
  refine ⟨fun e failed _ _ write s => runOn_encodeTo_of_error write failed s, ?_⟩
  intro file encoded
  refine ⟨fun write s => runOn_encodeTo_of_ok write encoded s, ⟨?_, ?_⟩, ?_⟩
  · intro decoded
    exact readable_of_valid (of_decode decoded).1
  · intro readable
    exact readable.decode_of_encode encoded
  · intro read decoded
    exact ((decode_eq_ok_iff encoded offsets).mp decoded).2

def appendFile (file : List UInt8) : InPlace (List UInt8) Text Unit :=
  modify fun before => before ++ file

/-- A file that is written behind other bytes and read back, and an object with a field beyond its
code, for which nothing is written. -/
theorem files_are_read_back_sample :
    (∃ file, encode sampleObject = .ok file ∧ decode file = .ok sampleObject ∧
      runOn (encodeTo appendFile sampleObject) [1, 2] = (.ok (), [1, 2] ++ file)) ∧
    ∃ e, runOn (encodeTo appendFile ⟨[], [], [⟨ascii "f", 0, 4, 4, true⟩]⟩) [1, 2] =
      (.error (.inl e), [1, 2]) := by
  constructor
  · have valid : Valid sampleObject := by decide
    have encoded := encode_of_valid valid
    obtain ⟨written, readBack, -⟩ := (files_are_read_back sampleObject (by decide)).2 _ encoded
    exact ⟨_, encoded, readBack.mpr (readable_of_valid valid), written appendFile [1, 2]⟩
  · exact ⟨_, (files_are_read_back _ (by decide)).1
      (.fault (.relocationOffset (ascii "f") 0)) (by decide) appendFile [1, 2]⟩

/-- An object with a label that cannot be referred to. -/
def blankInName : Object := ⟨[0xC3], [⟨ascii "a b", 0, false⟩], []⟩

/-- An object with a field that starts at the last of all offsets. -/
def endPastNumbers : Object := ⟨[0xC3], [], [⟨ascii "f", 2 ^ 63 - 1, 1, 0, false⟩]⟩

theorem written_of_blankInName : Written blankInName (fileOf blankInName) where
  code := by decide
  labels := by decide +kernel
  labelSection := by decide
  relocations := by decide
  relocationSection := by decide
  file := rfl

theorem written_of_endPastNumbers : Written endPastNumbers (fileOf endPastNumbers) where
  code := by decide
  labels := by decide
  labelSection := by decide
  relocations := by decide +kernel
  relocationSection := by decide
  file := rfl

/-- The writer lets both objects pass, and the reader neither of them. -/
theorem files_may_be_rejected :
    (∃ file, encode blankInName = .ok file ∧
      decode file = .error (.labelName 0 (ascii "a b"))) ∧
    ∃ file, encode endPastNumbers = .ok file ∧
      decode file = .error (.relocationOffset (ascii "f") (2 ^ 32 - 1)) := by
  refine ⟨⟨_, encode_of_written written_of_blankInName, ?_⟩,
    ⟨_, encode_of_written written_of_endPastNumbers, ?_⟩⟩
  · rw [decode_of_written written_of_blankInName]
    decide +kernel
  · rw [decode_of_written written_of_endPastNumbers]
    decide +kernel

end ObjectFile

end Asm64
