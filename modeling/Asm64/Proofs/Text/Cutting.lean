import Mathlib.Data.List.TakeWhile
import Mathlib.Tactic
import Asm64.Text.Basic

/-!
# Texts that are cut at a separator

What a text is cut into follows from where the separators stand in it: up to the first one, from
the last one on, or between any two of them.
-/

namespace Asm64.Text

variable {separator : UInt8}

/-! ### All separators -/

theorem split_cons_separator (separator : UInt8) (t : Text) :
    split separator (separator :: t) = [] :: split separator t := by
  simp [split]

theorem split_cons_of_ne {byte : UInt8} (other : byte ≠ separator) {t piece : Text}
    {pieces : List Text} (rest : split separator t = piece :: pieces) :
    split separator (byte :: t) = (byte :: piece) :: pieces := by
  unfold split at *
  rw [List.foldr_cons, if_neg other, rest]

theorem split_ne_nil (separator : UInt8) (t : Text) : split separator t ≠ [] := by
  induction t with
  | nil => simp [split]
  | cons byte rest inductionHypothesis =>
      by_cases same : byte = separator
      · rw [same, split_cons_separator]
        exact List.cons_ne_nil _ _
      · obtain ⟨piece, pieces, split⟩ := List.exists_cons_of_ne_nil inductionHypothesis
        rw [split_cons_of_ne same split]
        exact List.cons_ne_nil _ _

theorem split_append (separator : UInt8) (front back : Text) :
    split separator (front ++ separator :: back) =
      split separator front ++ split separator back := by
  induction front with
  | nil => exact split_cons_separator separator back
  | cons byte rest inductionHypothesis =>
      rw [List.cons_append]
      by_cases same : byte = separator
      · rw [same, split_cons_separator, split_cons_separator, inductionHypothesis,
          List.cons_append]
      · obtain ⟨piece, pieces, split⟩ := List.exists_cons_of_ne_nil (split_ne_nil separator rest)
        rw [split, List.cons_append] at inductionHypothesis
        rw [split_cons_of_ne same inductionHypothesis, split_cons_of_ne same split,
          List.cons_append]

theorem split_append_of_not_mem {front : Text} (absent : separator ∉ front)
    {t piece : Text} {pieces : List Text} (rest : split separator t = piece :: pieces) :
    split separator (front ++ t) = (front ++ piece) :: pieces := by
  induction front with
  | nil => exact rest
  | cons byte front inductionHypothesis =>
      rw [List.mem_cons, not_or] at absent
      exact split_cons_of_ne (Ne.symm absent.1) (inductionHypothesis absent.2)

theorem split_of_not_mem {t : Text} (absent : separator ∉ t) : split separator t = [t] := by
  have whole := split_append_of_not_mem absent (show split separator [] = [[]] from rfl)
  rwa [List.append_nil] at whole

/-! ### The first and the last separator -/

theorem cut_append {front : Text} (absent : separator ∉ front) (back : Text) :
    cut separator (front ++ separator :: back) = some (front, back) := by
  have passed : ∀ b ∈ front, (b != separator) = true :=
    fun b member => bne_iff_ne.mpr fun same => absent (same ▸ member)
  rw [cut, List.dropWhile_append_of_pos passed, List.takeWhile_append_of_pos passed]
  simp

theorem cut_eq_none {t : Text} (absent : separator ∉ t) : cut separator t = none := by
  have passed : ∀ b ∈ t, (b != separator) = true :=
    fun b member => bne_iff_ne.mpr fun same => absent (same ▸ member)
  rw [cut, List.dropWhile_eq_nil_iff.mpr passed]

theorem cutLast_append {back : Text} (absent : separator ∉ back) (front : Text) :
    cutLast separator (front ++ separator :: back) = some (front, back) := by
  rw [cutLast, List.reverse_append, List.reverse_cons, List.append_assoc, List.singleton_append,
    cut_append (by simpa using absent)]
  simp

theorem exists_last_of_mem {t : Text} (member : separator ∈ t) :
    ∃ front back, t = front ++ separator :: back ∧ separator ∉ back := by
  obtain ⟨back, front, reversed, absent⟩ :=
    List.eq_append_cons_of_mem (List.mem_reverse.mpr member)
  refine ⟨front.reverse, back.reverse, ?_, by simpa using absent⟩
  rw [← List.reverse_reverse t, reversed]
  simp

/-! ### Texts that are put together -/

theorem join_cons (separator first : Text) (rest : List Text) :
    join separator (first :: rest) = first ++ rest.flatMap (separator ++ ·) := by
  induction rest generalizing first with
  | nil => simp [join]
  | cons next rest inductionHypothesis =>
      rw [join, List.intercalate_cons_cons, ← join, inductionHypothesis, List.flatMap_cons]
      simp

theorem not_mem_join {separator : Text} {words : List Text} {b : UInt8}
    (other : b ∉ separator) (absent : ∀ word ∈ words, b ∉ word) : b ∉ join separator words := by
  cases words with
  | nil => simp [join]
  | cons first rest =>
      rw [List.forall_mem_cons] at absent
      rw [join_cons, List.mem_append, List.mem_flatMap]
      rintro (inFirst | ⟨word, member, inWord⟩)
      · exact absent.1 inFirst
      · exact (List.mem_append.mp inWord).elim other (absent.2 word member)

end Asm64.Text
