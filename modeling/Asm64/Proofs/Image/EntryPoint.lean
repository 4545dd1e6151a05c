import Asm64.Command.Run
import Asm64.Proofs.Image.Executable
import Asm64.Proofs.Object.Obtainable

/-!
# Where execution starts

A label may stand at the end of the code, with nothing behind it.  A program is not run from
there, but an executable may start there: its entry point lies right behind the bytes that are
loaded.  All other labels are entry points of both, at the same place in the code.
-/

namespace Asm64

namespace Command.Run

theorem entryOffset_eq_ok_iff {o : Object} {entry : Text} {offset : Int} :
    entryOffset o entry = .ok offset ↔
      ∃ l, o.label? entry = some l ∧ l.value < o.code.length ∧ offset = l.value := by
  unfold entryOffset
  cases o.label? entry with
  | none => simp
  | some l =>
      by_cases atEnd : o.code.length ≤ l.value
      · simp [atEnd]
      · simp [atEnd, Int.not_le.mp atEnd, eq_comm]

/-- The program can be run from an offset into its code. -/
def StartsAt (o : Object) (entry : Text) (offset : Int) : Prop :=
  ∃ located, o.locate = .ok located ∧ entryOffset located entry = .ok offset

end Command.Run

namespace Object

theorem length_executable {o : Object} {entry : Text} {file : List UInt8}
    (written : o.executable entry = .ok file) : file.length = 176 + o.code.length := by
  obtain ⟨located, l, succeeded, -, rfl⟩ := executable_eq_ok_iff.mp written
  obtain ⟨-, -, rfl⟩ := locate_eq_ok_iff.mp succeeded
  rw [Elf.length_fileBytes, codeSection, length_written_code]
  rfl

/-- An executable starts at its entry label, behind the headers. -/
theorem exists_entry_of_executable {o : Object}
    (labelled : ∀ l ∈ o.labels, IsOffset l.value) {entry : Text} {file : List UInt8}
    (written : o.executable entry = .ok file) :
    ∃ l, o.label? entry = some l ∧ (Elf.entryAddress file : Int) = 0x400000 + 176 + l.value := by
  obtain ⟨located, l, -, found, rfl⟩ := executable_eq_ok_iff.mp written
  refine ⟨l, found, ?_⟩
  rw [(Elf.fileHeader_numbers _ _ _).1]
  exact toNat_addressOf (labelled l (mem_of_label?_eq_some found).1)

end Object

open Object Command.Run

theorem startsAt_iff {o : Object} {entry : Text} {offset : Int} :
    StartsAt o entry offset ↔
      (∃ file, o.executable entry = .ok file) ∧
        ∃ l, o.label? entry = some l ∧ l.value < o.code.length ∧ offset = l.value := by
  constructor
  · rintro ⟨located, succeeded, isOffset⟩
    obtain ⟨-, -, rfl⟩ := locate_eq_ok_iff.mp succeeded
    obtain ⟨l, found, before, rfl⟩ := entryOffset_eq_ok_iff.mp isOffset
    rw [length_written_code] at before
    exact ⟨⟨_, executable_eq_ok_iff.mpr ⟨_, l, succeeded, found, rfl⟩⟩, l, found, before, rfl⟩
  · rintro ⟨⟨file, written⟩, l, found, before, rfl⟩
    obtain ⟨located, -, succeeded, -, -⟩ := executable_eq_ok_iff.mp written
    refine ⟨located, succeeded, entryOffset_eq_ok_iff.mpr ?_⟩
    obtain ⟨-, -, rfl⟩ := locate_eq_ok_iff.mp succeeded
    rw [length_written_code]
    exact ⟨l, found, before, rfl⟩

/-- The entry point of an executable lies in the code, or at its end if the label does.  A program
can be run from just those labels whose executables start before the end of what is loaded, and it
starts at the same place in the code. -/
theorem Obtainable.entry_lies_in_code_or_at_its_end {o : Object} (obtainable : Obtainable o)
    (addressable : Addressable o.code.length) (entry : Text) :
    (∀ file, o.executable entry = .ok file →
      0x400000 + 176 ≤ Elf.entryAddress file ∧ Elf.entryAddress file ≤ 0x400000 + file.length ∧
      (Elf.entryAddress file < 0x400000 + file.length ↔
        ∃ l, o.label? entry = some l ∧ l.value ≠ o.code.length)) ∧
    ∀ offset, StartsAt o entry offset ↔
      ∃ file, o.executable entry = .ok file ∧
        (Elf.entryAddress file : Int) = 0x400000 + 176 + offset ∧
        Elf.entryAddress file < 0x400000 + file.length := by
  have bounds := (obtainable.sound addressable).labels
  have labelled : ∀ l ∈ o.labels, IsOffset l.value := fun l member =>
    (bounds l member).isOffset addressable
  constructor
  · intro file written
    have length := length_executable written
    obtain ⟨l, found, address⟩ := exists_entry_of_executable labelled written
    obtain ⟨nonnegative, bounded⟩ := bounds l (mem_of_label?_eq_some found).1
    refine ⟨by omega, by omega, ?_⟩
    constructor
    · intro before
      exact ⟨l, found, by omega⟩
    · rintro ⟨other, alsoFound, notAtEnd⟩
      cases found.symm.trans alsoFound
      omega
  · intro offset
    rw [startsAt_iff]
    constructor
    · rintro ⟨⟨file, written⟩, l, found, before, rfl⟩
      have length := length_executable written
      obtain ⟨other, alsoFound, address⟩ := exists_entry_of_executable labelled written
      cases found.symm.trans alsoFound
      exact ⟨file, written, address, by omega⟩
    · rintro ⟨file, written, address, before⟩
      have length := length_executable written
      obtain ⟨l, found, atLabel⟩ := exists_entry_of_executable labelled written
      exact ⟨⟨file, written⟩, l, found, by omega, by omega⟩

/-- What `main: ret` is assembled to if a label without an instruction follows. -/
def endObject : Object := ⟨[0xC3], [⟨ascii "main", 0, false⟩, ⟨ascii "end", 1, false⟩], []⟩

theorem obtainable_endObject : Obtainable endObject :=
  obtainable_of_standard (ascii "main: ret\nend:") (by decide +kernel)

theorem Obtainable.entry_lies_in_code_or_at_its_end_sample :
    StartsAt endObject (ascii "main") 0 ∧
      ∃ file, endObject.executable (ascii "main") = .ok file ∧
        (Elf.entryAddress file : Int) = 0x400000 + 176 + 0 ∧
        Elf.entryAddress file < 0x400000 + file.length := by
  have starts : StartsAt endObject (ascii "main") 0 :=
    ⟨endObject, toOption_eq_some_iff.mp (by decide +kernel),
      entryOffset_eq_ok_iff.mpr ⟨_, rfl, by decide, rfl⟩⟩
  have addressable : Addressable endObject.code.length := by
    unfold Addressable
    decide
  refine ⟨starts, ?_⟩
  exact ((obtainable_endObject.entry_lies_in_code_or_at_its_end addressable _).2 0).mp starts

/-- The label at the end is no place to run the program from, but that of an executable. -/
theorem executable_may_start_at_end :
    Obtainable endObject ∧
      (∃ file, endObject.executable (ascii "end") = .ok file ∧
        Elf.entryAddress file = 0x400000 + file.length) ∧
      ∀ offset, ¬ StartsAt endObject (ascii "end") offset := by
  have evaluated : (endObject.executable (ascii "end")).toOption.map (fun file =>
      decide (Elf.entryAddress file = 0x400000 + file.length)) = some true := by
    decide +kernel
  simp only [Option.map_eq_some_iff, toOption_eq_some_iff, decide_eq_true_iff] at evaluated
  refine ⟨obtainable_endObject, evaluated, ?_⟩
  intro offset starts
  obtain ⟨-, l, found, before, -⟩ := startsAt_iff.mp starts
  have isEnd : endObject.label? (ascii "end") = some ⟨ascii "end", 1, false⟩ := by decide
  cases isEnd.symm.trans found
  exact absurd before (by decide)

end Asm64
