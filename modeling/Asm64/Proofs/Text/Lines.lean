import Asm64.Proofs.Statement

/-!
# Lines

The lines of a source are what stands between its newlines, and a last line that is not ended by
one.  A reader with a buffer finds them all if the buffer is longer than the source.
-/

namespace Asm64.Text

theorem eq_append_of_cut {separator : UInt8} {t front back : Text}
    (found : cut separator t = some (front, back)) :
    t = front ++ separator :: back ∧ separator ∉ front := by
  by_cases member : separator ∈ t
  · obtain ⟨first, rest, rfl, absent⟩ := List.eq_append_cons_of_mem member
    rw [cut_append absent] at found
    cases found
    exact ⟨rfl, absent⟩
  · rw [cut_eq_none member] at found
    cases found

/-- The lines of a source, each ended by a newline, except perhaps a last one that is not empty. -/
inductive HasLines : Text → List Text → Prop
  | none : HasLines [] []
  | last {line : Text} : line ≠ [] → 10 ∉ line → HasLines line [line]
  | cons {line rest : Text} {lines : List Text} : 10 ∉ line → HasLines rest lines →
      HasLines (line ++ 10 :: rest) (line :: lines)

theorem rawLines_of_hasLines {t : Text} {lines : List Text} (has : HasLines t lines) :
    rawLines t = lines := by
  induction has with
  | none => rfl
  | last nonempty unbroken => exact rawLines_of_not_mem unbroken nonempty
  | cons unbroken _ inductionHypothesis =>
      rw [rawLines_append, split_of_not_mem unbroken, inductionHypothesis]
      rfl

theorem exists_hasLines (t : Text) : ∃ lines, HasLines t lines := by
  induction length : t.length using Nat.strongRecOn generalizing t with
  | ind _ inductionHypothesis =>
      by_cases broken : 10 ∈ t
      · obtain ⟨line, rest, rfl, unbroken⟩ := List.eq_append_cons_of_mem broken
        have shorter : rest.length < (line ++ 10 :: rest).length := by
          rw [List.length_append, List.length_cons]
          omega
        obtain ⟨lines, has⟩ := inductionHypothesis _ (length ▸ shorter) rest rfl
        exact ⟨line :: lines, .cons unbroken has⟩
      · by_cases empty : t = []
        · exact ⟨[], empty ▸ .none⟩
        · exact ⟨[t], .last empty broken⟩

theorem hasLines_rawLines (t : Text) : HasLines t (rawLines t) := by
  obtain ⟨lines, has⟩ := exists_hasLines t
  rwa [rawLines_of_hasLines has]

theorem unbroken_of_mem_rawLines {t : Text} : ∀ line ∈ rawLines t, 10 ∉ line := by
  have has := hasLines_rawLines t
  generalize rawLines t = raw at has
  induction has with
  | none => exact List.forall_mem_nil _
  | last _ unbroken => exact List.forall_mem_singleton.mpr unbroken
  | cons unbroken _ inductionHypothesis =>
      exact List.forall_mem_cons.mpr ⟨unbroken, inductionHypothesis⟩

/-! ### Reading through a buffer -/

/-- Reads lines through a buffer, which has to hold a line and one byte more, and stops at the first
line that it is too short for. -/
def scanLines (capacity : Nat) (t : Text) : List Text :=
  match _ : cut 10 t with
  | some (line, rest) =>
    if line.length < capacity then dropCarriageReturn line :: scanLines capacity rest else []
  | none => if t.isEmpty ∨ capacity ≤ t.length then [] else [dropCarriageReturn t]
termination_by t.length
decreasing_by exact length_lt_of_cut (by assumption)

theorem scanLines_of_unbroken {capacity : Nat} {line : Text} (unbroken : 10 ∉ line)
    (nonempty : line ≠ []) (short : line.length < capacity) :
    scanLines capacity line = [dropCarriageReturn line] := by
  rw [scanLines]
  split
  · rename_i found
    rw [cut_eq_none unbroken] at found
    cases found
  · rw [if_neg]
    rw [List.isEmpty_iff, not_or, not_le]
    exact ⟨nonempty, short⟩

theorem scanLines_append {capacity : Nat} {line : Text} (unbroken : 10 ∉ line)
    (short : line.length < capacity) (rest : Text) :
    scanLines capacity (line ++ 10 :: rest) =
      dropCarriageReturn line :: scanLines capacity rest := by
  have first := cut_append unbroken rest
  rw [scanLines]
  split
  · rename_i found
    rw [first] at found
    cases found
    rw [if_pos short]
  · rename_i found
    rw [first] at found
    cases found

/-- No line is cut off or left out if the buffer is longer than the source. -/
theorem scanLines_eq {capacity : Nat} {t : Text} (short : t.length < capacity) :
    scanLines capacity t = lines t := by
  have has := hasLines_rawLines t
  rw [lines]
  generalize rawLines t = raw at has
  induction has with
  | none =>
      rw [scanLines]
      rfl
  | last nonempty unbroken => exact scanLines_of_unbroken unbroken nonempty short
  | @cons line rest lines unbroken _ inductionHypothesis =>
      rw [List.length_append, List.length_cons] at short
      rw [scanLines_append unbroken (by omega), inductionHypothesis (by omega)]
      rfl

/-! ### Sources that are put together -/

theorem length_split (separator : UInt8) (t : Text) :
    (split separator t).length = t.count separator + 1 := by
  induction t with
  | nil => rfl
  | cons byte rest inductionHypothesis =>
      by_cases same : byte = separator
      · rw [same, split_cons_separator, List.length_cons, inductionHypothesis, List.count_cons_self]
      · obtain ⟨piece, pieces, split⟩ := List.exists_cons_of_ne_nil (split_ne_nil separator rest)
        rw [split, List.length_cons] at inductionHypothesis
        rw [split_cons_of_ne same split, List.length_cons, inductionHypothesis,
          List.count_cons_of_ne same]

theorem lines_append (front back : Text) :
    lines (front ++ 10 :: back) = lines (front ++ [10]) ++ lines back := by
  have nothing : rawLines [] = [] := rfl
  rw [lines, rawLines_append, List.map_append, lines, rawLines_append front [], nothing,
    List.append_nil]
  rfl

theorem length_lines_newline (front : Text) :
    (lines (front ++ [10])).length = 1 + front.count 10 := by
  have nothing : rawLines [] = [] := rfl
  rw [lines, List.length_map, rawLines_append front [], nothing, List.append_nil, length_split,
    Nat.add_comm]

end Asm64.Text
