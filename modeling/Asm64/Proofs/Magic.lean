import Asm64.ObjectFile.Basic
import Asm64.Proofs.Assembler.FirstPass
import Asm64.Proofs.Statement
import Asm64.Proofs.Text.Blank

/-!
# Sources do not look like object files

The bytes that mark an object file end with a zero byte.  At the start of a source they survive
all that is done to its first line: no line ends in them, no comment starts in them, and no white
space is found in them.  What is left is read as a name with a zero byte in it, and there is no
such name.
-/

namespace Asm64

namespace Statement

/-! ### Comments -/

theorem prefix_stripCommentFrom (seen : Text) (inString : Bool) (t : Text) :
    seen.reverse <+: stripCommentFrom seen inString t := by
  fun_induction stripCommentFrom seen inString t with
  | case1 | case5 => exact List.prefix_rfl
  | case2 seen =>
      rw [List.reverse_cons]
      exact List.prefix_append _ _
  | case3 seen _ b _ escaped rest inductionHypothesis =>
      rw [List.reverse_cons, List.reverse_cons, List.append_assoc] at inductionHypothesis
      exact (List.prefix_append _ _).trans inductionHypothesis
  | case4 seen inString rest _ inductionHypothesis =>
      rw [List.reverse_cons] at inductionHypothesis
      exact (List.prefix_append _ _).trans inductionHypothesis
  | case6 seen inString b rest _ _ _ inductionHypothesis =>
      rw [List.reverse_cons] at inductionHypothesis
      exact (List.prefix_append _ _).trans inductionHypothesis

theorem prefix_stripComment {start line : Text} (unquoted : 34 ∉ start) (plain : 47 ∉ start)
    (starts : start <+: line) : start <+: stripComment line := by
  obtain ⟨rest, rfl⟩ := starts
  rw [stripComment, stripCommentFrom_append unquoted plain, List.append_nil]
  simpa using prefix_stripCommentFrom start.reverse false rest

/-! ### Sources that start like object files -/

open ObjectFile (magic)

theorem exists_line_of_magic {source : Text} (starts : magic <+: source) :
    ∃ line later, Text.lines source = line :: later ∧ magic <+: line := by
  obtain ⟨rest, rfl⟩ := starts
  obtain ⟨piece, pieces, pieced⟩ := List.exists_cons_of_ne_nil (Text.split_ne_nil 10 rest)
  have unbroken : (10 : UInt8) ∉ magic := by decide
  have ends : magic.getLast? = some 0 := by decide
  obtain ⟨later, raw⟩ := Text.rawLines_of_split (Text.split_append_of_not_mem unbroken pieced)
    (by simp [magic, ascii])
  refine ⟨Text.dropCarriageReturn (magic ++ piece), later.map Text.dropCarriageReturn, ?_, ?_⟩
  · rw [Text.lines, raw, List.map_cons]
  · exact Text.prefix_dropCarriageReturn ends (by decide) (List.prefix_append _ _)

theorem magic_prefix_trim {t : Text} (starts : magic <+: t) : magic <+: Text.trim t := by
  obtain ⟨rest, rfl⟩ := starts
  have spelled : magic = ascii "asmacro" ++ [0] := by decide
  have untrimmed : Text.trimStart (ascii "asmacro") = ascii "asmacro" := by decide
  have trimmed := Text.trim_append (by decide : Text.isSolid 0 = true) (ascii "asmacro") rest
  rw [spelled, List.append_assoc, List.singleton_append, trimmed, untrimmed]
  exact ⟨Text.trimEnd rest, by simp⟩

/-- Whatever is cut off behind the mark, it is no identifier. -/
theorem not_isIdentifier_takeWhile {t : Text} (starts : magic <+: t) {inside : UInt8 → Bool}
    (passed : magic.all inside = true) : Text.isIdentifier (t.takeWhile inside) = false := by
  obtain ⟨rest, rfl⟩ := starts
  rw [List.takeWhile_append_of_pos (List.all_eq_true.mp passed), Bool.eq_false_iff]
  intro identifier
  have zero : Text.isNameByte 0 = false := by decide
  exact Text.not_mem_of_isNameByte (Text.isNameByte_of_isIdentifier identifier) zero
    (List.mem_append_left _ (by decide))

theorem labelName?_of_magic {t : Text} (starts : magic <+: t) : labelName? t = none := by
  unfold labelName? Text.cut
  split
  · rename_i name after found
    split at found <;> cases found
    rw [not_isIdentifier_takeWhile starts (by decide), if_neg (by decide)]
  · rfl

theorem instructionContent_of_magic {t : Text} (starts : magic <+: t) :
    instructionContent t = .unknown := by
  unfold instructionContent splitWord
  dsimp only
  rw [not_isIdentifier_takeWhile starts (by decide), if_neg (by decide)]

theorem content_of_magic {line : Text} (starts : magic <+: line) :
    (parse line).content = .unknown := by
  have trimmed := magic_prefix_trim starts
  have first : (Text.trim line).head? = some 97 := by
    obtain ⟨rest, same⟩ := trimmed
    rw [← same]
    rfl
  unfold parse parseTrimmed
  split
  · rename_i empty
    simp [empty] at first
  · rename_i rest dotted
    simp [dotted] at first
  · rw [labelName?_of_magic trimmed]
    exact instructionContent_of_magic trimmed

/-- The first statement of a source that starts like an object file is not one that the assembler
knows. -/
theorem exists_unknown_of_magic {source : Text} (starts : magic <+: source) :
    ∃ numbered ∈ ofSource source, numbered.2.content = .unknown := by
  obtain ⟨line, later, lines, lineStarts⟩ := exists_line_of_magic starts
  have content := content_of_magic (prefix_stripComment (by decide) (by decide) lineStarts)
  refine ⟨(1, parse (stripComment line)), ?_, content⟩
  have only : ofLine (stripComment line) = [parse (stripComment line)] := by
    rw [ofLine, content]
  rw [ofSource, lines, List.zipIdx_cons, List.flatMap_cons]
  dsimp only
  rw [only]
  exact List.mem_append_left _ (List.mem_singleton_self _)

end Statement

namespace Assembler

variable {a : Assembler} {catalog : Catalog} {d : Draft}

/-- A run without errors has met no statement that it does not know. -/
theorem content_ne_unknown_of_clean {statements : List (Nat × Statement)} {final : Draft}
    (ran : statements.foldlM (a.step catalog) d = .ok final) (clean : final.errors = []) :
    ∀ numbered ∈ statements, numbered.2.content ≠ .unknown := by
  induction statements generalizing d with
  | nil => simp
  | cons numbered rest inductionHypothesis =>
      rw [List.foldlM_cons, bind_eq_ok_iff] at ran
      obtain ⟨next, stepped, ran⟩ := ran
      obtain ⟨-, performed, -⟩ := step_of_clean stepped (foldlM_step_of_clean ran clean)
      refine List.forall_mem_cons.mpr ⟨?_, inductionHypothesis ran⟩
      intro unknown
      simp [perform, unknown] at performed

theorem isObject_eq_false_of_assemble {source : Text} {assembly : Assembly}
    (assembled : a.assemble source = .ok assembly) : ObjectFile.isObject source = false := by
  rw [Bool.eq_false_iff]
  intro isObject
  obtain ⟨d, ran, clean, -, -⟩ := exists_draft_of_assembleStatements assembled
  simp only [run, bind_eq_ok_iff] at ran
  obtain ⟨drafted, stepped, finished⟩ := ran
  obtain ⟨numbered, member, unknown⟩ :=
    Statement.exists_unknown_of_magic (List.isPrefixOf_iff_prefix.mp isObject)
  exact content_ne_unknown_of_clean stepped (foldlM_finishGlobal_errors finished clean)
    numbered member unknown

end Assembler

end Asm64
