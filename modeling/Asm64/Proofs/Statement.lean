import Asm64.Proofs.Text.Cutting
import Asm64.Statement

/-!
# Lines and statements of sources

A newline ends a line whatever comes before or after it, so the statements of two sources with a
newline between them are those of the first and then those of the second.  What a line starts with
stays, unless it is a carriage return or could start a string or a comment.
-/

namespace Asm64

namespace Text

/-! ### Lines of sources that are put together -/

theorem rawLines_append (front back : Text) :
    rawLines (front ++ 10 :: back) = split 10 front ++ rawLines back := by
  have nonempty := split_ne_nil 10 back
  unfold rawLines
  rw [split_append]
  dsimp only
  rw [List.getLast?_append_of_ne_nil _ nonempty]
  split
  · rw [List.dropLast_append_of_ne_nil nonempty]
  · rfl

/-- Only an empty piece after the last newline is no line. -/
theorem split_eq_rawLines_append (t : Text) :
    ∃ empty : List Text, (∀ line ∈ empty, line = []) ∧ split 10 t = rawLines t ++ empty := by
  unfold rawLines
  dsimp only
  split
  · rename_i last
    refine ⟨[[]], by simp, ?_⟩
    rw [List.dropLast_append_getLast? [] last]
  · exact ⟨[], by simp, by simp⟩

/-! ### The first line -/

theorem rawLines_of_not_mem {t : Text} (unbroken : 10 ∉ t) (nonempty : t ≠ []) :
    rawLines t = [t] := by
  rw [rawLines, split_of_not_mem unbroken]
  simp [nonempty]

theorem rawLines_of_split {t piece : Text} {pieces : List Text}
    (pieced : split 10 t = piece :: pieces) (nonempty : piece ≠ []) :
    ∃ later, rawLines t = piece :: later := by
  unfold rawLines
  dsimp only
  rw [pieced]
  cases pieces with
  | nil => simp [nonempty]
  | cons next others =>
      split
      · exact ⟨_, List.dropLast_cons_cons⟩
      · exact ⟨_, rfl⟩

theorem prefix_dropCarriageReturn {start line : Text} {last : UInt8}
    (ends : start.getLast? = some last) (other : last ≠ 13) (starts : start <+: line) :
    start <+: dropCarriageReturn line := by
  obtain ⟨rest, rfl⟩ := starts
  unfold dropCarriageReturn
  split
  · rename_i carriageReturn
    have more : rest ≠ [] := by
      rintro rfl
      rw [List.append_nil, ends, Option.some.injEq] at carriageReturn
      exact other carriageReturn
    rw [List.dropLast_append_of_ne_nil more]
    exact List.prefix_append _ _
  · exact List.prefix_append _ _

end Text

namespace Statement

/-! ### Comments -/

theorem stripCommentFrom_append {start : Text} (unquoted : 34 ∉ start) (plain : 47 ∉ start)
    (seen rest : Text) :
    stripCommentFrom seen false (start ++ rest) =
      stripCommentFrom (start.reverse ++ seen) false rest := by
  induction start generalizing seen with
  | nil => rfl
  | cons b start inductionHypothesis =>
      rw [List.mem_cons, not_or] at unquoted plain
      rw [List.cons_append, stripCommentFrom.eq_def]
      simp [Ne.symm unquoted.1, Ne.symm plain.1, inductionHypothesis unquoted.2 plain.2]

/-! ### Statements of lines -/

def ofLines (lines : List Text) : List Statement :=
  lines.flatMap fun line => ofLine (stripComment line)

theorem map_snd_ofSource (source : Text) :
    (ofSource source).map Prod.snd = ofLines (Text.lines source) := by
  unfold ofSource ofLines
  generalize Text.lines source = lines
  generalize 1 = first
  induction lines generalizing first with
  | nil => rfl
  | cons line rest inductionHypothesis =>
      rw [List.zipIdx_cons, List.flatMap_cons, List.map_append, inductionHypothesis,
        List.flatMap_cons, List.map_map]
      simp [Function.comp_def]

def align16 : Statement := ⟨ascii ".align16", .directive (ascii "align16") []⟩

theorem ofLine_align16 :
    ofLine (stripComment (Text.dropCarriageReturn (ascii ".align16"))) = [align16] := by
  rw [ofLine]
  decide +kernel

theorem ofLine_empty : ofLine (stripComment (Text.dropCarriageReturn [])) = [⟨[], .blank⟩] := by
  rw [ofLine]
  decide +kernel

/-- Between the statements of two sources that are put together with `.align16` there is at most
a blank one, where the first source ends with a newline. -/
theorem map_snd_ofSource_align16 (front back : Text) :
    ∃ blanks : List Statement, (∀ statement ∈ blanks, statement.content = .blank) ∧
      (ofSource (front ++ ascii "\n.align16\n" ++ back)).map Prod.snd =
        (ofSource front).map Prod.snd ++
          (blanks ++ align16 :: (ofSource back).map Prod.snd) := by
  obtain ⟨empty, isEmpty, split⟩ := Text.split_eq_rawLines_append front
  have separated : front ++ ascii "\n.align16\n" ++ back =
      front ++ 10 :: (ascii ".align16" ++ 10 :: back) := by
    rw [List.append_assoc]
    rfl
  have between : Text.split 10 (ascii ".align16") = [ascii ".align16"] := by decide
  refine ⟨ofLines (empty.map Text.dropCarriageReturn), ?_, ?_⟩
  · intro statement member
    simp only [ofLines, List.mem_flatMap, List.mem_map] at member
    obtain ⟨_, ⟨line, inLines, rfl⟩, parsed⟩ := member
    rw [isEmpty line inLines, ofLine_empty, List.mem_singleton] at parsed
    rw [parsed]
  · simp only [map_snd_ofSource]
    rw [separated, Text.lines, Text.rawLines_append, Text.rawLines_append, between, split]
    simp only [ofLines, Text.lines, List.map_append, List.flatMap_append, List.map_cons,
      List.flatMap_cons, ofLine_align16, List.append_assoc, List.singleton_append]

end Statement

end Asm64
