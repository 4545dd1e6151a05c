import Asm64.FileStore

/-!
# Writing files

A file that is written is read back, and no other file is changed by writing it.
-/

namespace Asm64.FileStore

theorem lookup_put_self (name : Text) (file : File) (files : List (Text × File)) :
    (put name file files).lookup name = some file := by
  induction files with
  | nil => simp [put]
  | cons entry rest inductionHypothesis =>
      obtain ⟨first, old⟩ := entry
      rw [put]
      split
      · simp
      · next kept =>
          have differs : (name == first) = false := beq_eq_false_iff_ne.mpr (Ne.symm kept)
          simp [List.lookup_cons, differs, inductionHypothesis]

theorem lookup_put_of_ne {name other : Text} (differs : other ≠ name) (file : File)
    (files : List (Text × File)) : (put name file files).lookup other = files.lookup other := by
  have notHere : (other == name) = false := beq_eq_false_iff_ne.mpr differs
  induction files with
  | nil => simp [put, List.lookup_cons, notHere]
  | cons entry rest inductionHypothesis =>
      obtain ⟨first, old⟩ := entry
      rw [put]
      split
      · next replaced => simp [List.lookup_cons, replaced, notHere]
      · simp [List.lookup_cons, inductionHypothesis]

/-- The stores have the same directories, and the same files except for the one at a path. -/
structure SameBut (path : Text) (s t : FileStore) : Prop where
  directories : t.directories = s.directories
  files : ∀ name, name ≠ resolve path → t.files.lookup name = s.files.lookup name

theorem sameBut_write (s : FileStore) (w : FileWrite) : SameBut w.path s (s.write w) where
  directories := rfl
  files := fun _ other => lookup_put_of_ne other _ _

theorem isEmpty_eq_false_of_writeError? {s : FileStore} {path : Text}
    (free : s.writeError? path = none) : path.isEmpty = false := by
  cases empty : path.isEmpty with
  | true => simp [writeError?, empty] at free
  | false => rfl

theorem read_write {s : FileStore} {w : FileWrite} (free : s.writeError? w.path = none) :
    (s.write w).read w.path = .ok w.content := by
  simp [read, isEmpty_eq_false_of_writeError? free, write, lookup_put_self]

end Asm64.FileStore
