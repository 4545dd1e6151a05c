import Asm64.Proofs.Assembler.FirstPass
import Asm64.Proofs.Directive.StringLiteral
import Asm64.Proofs.Statement
import Asm64.Proofs.Success
import Asm64.Proofs.Text.Blank

/-!
# String data

A literal is read twice, once to find the comment behind it and once for its bytes.  Both readings
pass over one piece after another, so they agree on where the literal ends, whatever is written in
it.  The bytes between the quotes are touched by nothing else: not by the search for lines, words
and white space, which sees the quotes only.
-/

namespace Asm64

namespace Statement

open Directive (Writes quoted quoted_eq)

/-! ### Comments behind literals -/

theorem stripCommentFrom_piece {piece : Text} {b : UInt8} (writes : Writes piece b)
    (seen rest : Text) :
    stripCommentFrom seen true (piece ++ rest) =
      stripCommentFrom (piece.reverse ++ seen) true rest := by
  -- A slash is plain, but no comment starts inside a string.
  cases writes with
  | plain noQuote noBackslash =>
      rw [List.singleton_append, stripCommentFrom.eq_def]
      simp [noQuote, noBackslash]
  | newline | zero | carriageReturn | tab | backslash | quote => rfl

theorem stripCommentFrom_flatten {pieces : List Text} {t : Text}
    (written : List.Forall₂ Writes pieces t) (seen rest : Text) :
    stripCommentFrom seen true (pieces.flatten ++ rest) =
      stripCommentFrom (pieces.flatten.reverse ++ seen) true rest := by
  induction written generalizing seen with
  | nil => rfl
  | cons writes _ inductionHypothesis =>
      rw [List.flatten_cons, List.append_assoc, stripCommentFrom_piece writes,
        inductionHypothesis]
      simp

/-- A comment ends nothing in a literal, and starts behind it. -/
theorem stripComment_quoted {start : Text} (unquoted : 34 ∉ start) (plain : 47 ∉ start)
    {pieces : List Text} {t : Text} (written : List.Forall₂ Writes pieces t) (comment : Text) :
    stripComment (start ++ (quoted pieces.flatten ++ (ascii " //" ++ comment))) =
      start ++ (quoted pieces.flatten ++ [32]) := by
  have opened (seen rest : Text) :
      stripCommentFrom seen false (34 :: rest) = stripCommentFrom (34 :: seen) true rest := by
    rw [stripCommentFrom.eq_def]
    rfl
  have closed (seen : Text) :
      stripCommentFrom seen true (34 :: (ascii " //" ++ comment)) = (32 :: 34 :: seen).reverse :=
    rfl
  rw [quoted_eq, List.cons_append, List.append_assoc, List.singleton_append, stripComment,
    stripCommentFrom_append unquoted plain, opened, stripCommentFrom_flatten written, closed]
  simp

/-! ### The statement -/

theorem trim_quoted (inner : Text) : Text.trim (quoted inner) = quoted inner := by
  have quote : Text.isSolid 34 = true := by decide
  have starts : Text.trimStart (34 :: inner) = 34 :: inner := Text.trimStart_append quote [] inner
  have cut := Text.trim_append quote (34 :: inner) []
  rw [starts] at cut
  rw [quoted_eq]
  exact cut

theorem trim_utf8 (inner : Text) :
    Text.trim (ascii ".utf8 " ++ (quoted inner ++ [32])) = ascii ".utf8 " ++ quoted inner := by
  have quote : Text.isSolid 34 = true := by decide
  have starts : Text.trimStart (ascii ".utf8 " ++ 34 :: inner) = ascii ".utf8 " ++ 34 :: inner :=
    Text.trimStart_eq_self (by rintro _ ⟨⟩; decide)
  have cut := Text.trim_append quote (ascii ".utf8 " ++ 34 :: inner) [32]
  rw [starts, show Text.trimEnd [32] = [] from rfl] at cut
  rw [quoted_eq]
  simpa using cut

theorem parse_utf8 (inner : Text) :
    parse (ascii ".utf8 " ++ (quoted inner ++ [32])) =
      ⟨ascii ".utf8 " ++ quoted inner, .directive (ascii "utf8") (quoted inner)⟩ := by
  have inWord : ∀ b ∈ ascii "utf8", splitWord.isInWord b = true :=
    List.all_eq_true.mp (by decide)
  have word : splitWord (ascii "utf8" ++ 32 :: quoted inner) =
      (ascii "utf8", 32 :: quoted inner) := by
    rw [splitWord, List.takeWhile_append_of_pos inWord, List.dropWhile_append_of_pos inWord]
    simp [splitWord.isInWord]
  have content : directiveContent (ascii "utf8" ++ 32 :: quoted inner) =
      .directive (ascii "utf8") (quoted inner) := by
    rw [directiveContent, word]
    dsimp only
    rw [if_pos (by decide), Text.trim_space, trim_quoted]
  rw [parse, trim_utf8]
  exact congrArg (Statement.mk _) content

/-- A line with a literal and a comment is one statement, whatever is written in them. -/
theorem ofSource_utf8 {pieces : List Text} {t : Text} (written : List.Forall₂ Writes pieces t)
    {comment : Text} (unbroken : 10 ∉ quoted pieces.flatten) (noNewline : 10 ∉ comment) :
    ofSource (ascii ".utf8 " ++ (quoted pieces.flatten ++ (ascii " //" ++ comment))) =
      [(1, ⟨ascii ".utf8 " ++ quoted pieces.flatten,
        .directive (ascii "utf8") (quoted pieces.flatten)⟩)] := by
  have oneLine : 10 ∉ ascii ".utf8 " ++ (quoted pieces.flatten ++ (ascii " //" ++ comment)) := by
    simp [ascii, unbroken, noNewline]
  -- Only the comment can lose a carriage return.
  have ends : (ascii ".utf8 " ++ quoted pieces.flatten ++ ascii " //").getLast? = some 47 :=
    List.getLast?_append_of_ne_nil _ (by decide)
  obtain ⟨rest, line⟩ := Text.prefix_dropCarriageReturn ends (by decide)
    (List.prefix_append _ comment)
  have only : ofLine (ascii ".utf8 " ++ (quoted pieces.flatten ++ [32])) =
      [parse (ascii ".utf8 " ++ (quoted pieces.flatten ++ [32]))] := by
    rw [ofLine, parse_utf8]
  rw [ofSource, Text.lines, Text.rawLines_of_not_mem oneLine (by simp [ascii]), List.map_singleton]
  simp only [List.append_assoc] at line
  rw [← line]
  simp only [List.zipIdx_singleton, List.flatMap_singleton]
  rw [stripComment_quoted (by decide) (by decide) written, only, parse_utf8]
  rfl

end Statement

/-! ### Its code -/

namespace Assembler

section

variable {a : Assembler} {text literal t : Text} {line : Nat} {d : Draft}
  (read : Directive.unquote literal = .ok t) (trimmed : Text.trim literal = literal)

include read trimmed

theorem perform_utf8 (catalog : Catalog) :
    a.perform catalog line ⟨text, .directive (ascii "utf8") literal⟩ d =
      ⟨{ d with object := { d.object with code := d.object.code ++ t ++ [0] } }, none⟩ := by
  have found : Directive.lookup? a.customDirectives (ascii "utf8") = some ⟨ascii "utf8", .utf8⟩ :=
    rfl
  have applied : Directive.apply ⟨ascii "utf8", .utf8⟩ d.object literal =
      ⟨{ d.object with code := d.object.code ++ t ++ [0] }, none⟩ := by
    simp [Directive.apply, trimmed, Directive.applyUtf8, read, Directive.Outcome.ofExcept]
  simp only [perform, performDirective, found]
  rw [applied]
  rfl

theorem step_utf8 (catalog : Catalog) :
    ∃ listing, a.step catalog d (line, ⟨text, .directive (ascii "utf8") literal⟩) =
      .ok { d with
        object := { d.object with code := d.object.code ++ t ++ [0] }
        listing := listing } := by
  have longer : d.object.code.length < (d.object.code ++ t ++ [0]).length := by
    simp only [List.length_append, List.length_singleton]
    omega
  refine ⟨⟨text, d.object.code.length, (d.object.code ++ t ++ [0]).length⟩ :: d.listing, ?_⟩
  rw [step]
  dsimp only
  rw [perform_utf8 read trimmed]
  dsimp only
  rw [Draft.list, if_pos longer]

theorem assembleStatements_utf8 :
    ∃ assembly, a.assembleStatements [(line, ⟨text, .directive (ascii "utf8") literal⟩)] =
      .ok assembly ∧ assembly.object.code = t ++ [0] := by
  obtain ⟨listing, stepped⟩ := step_utf8 (a := a) (d := .empty) read trimmed a.forms
  have ran : a.run [(line, ⟨text, .directive (ascii "utf8") literal⟩)] =
      .ok ⟨⟨t ++ [0], [], []⟩, [], [], listing, []⟩ := by
    simp only [run, bind_eq_ok_iff, List.foldlM_cons]
    exact ⟨_, ⟨_, stepped, rfl⟩, rfl⟩
  refine ⟨⟨⟨t ++ [0], [], []⟩, Listing.render (t ++ [0]) listing.reverse⟩, ?_, rfl⟩
  rw [assembleStatements, ran]
  rfl

end

/-- Any text with its escapes in a literal, and any comment behind it, assembles to the bytes of the
text and a zero byte.  And a literal is read exactly if between its quotes it is made of bytes other
than quotes and backslashes and of the six escape sequences. -/
theorem string_data_survives :
    (∀ (a : Assembler) (t comment : Text), 10 ∉ comment →
      ∃ assembly,
        a.assemble (ascii ".utf8 \"" ++ Directive.escape t ++ ascii "\" //" ++ comment) =
          .ok assembly ∧ assembly.object.code = t ++ [0]) ∧
    ∀ s t : Text, Directive.unquote s = .ok t ↔
      ∃ pieces, List.Forall₂ Directive.Writes pieces t ∧
        s = ascii "\"" ++ pieces.flatten ++ ascii "\"" := by
  refine ⟨fun a t comment noNewline => ?_, fun s t => Directive.unquote_eq_ok_iff⟩
  have written := Directive.forall₂_writes_escapeByte t
  have escaped := Directive.escape_eq t
  have source : ascii ".utf8 \"" ++ Directive.escape t ++ ascii "\" //" ++ comment =
      ascii ".utf8 " ++ (Directive.quoted (Directive.escape t) ++ (ascii " //" ++ comment)) := by
    simp [Directive.quoted, ascii]
  have unbroken : 10 ∉ Directive.quoted (Directive.escape t) := by
    simp [Directive.quoted, ascii, Directive.newline_not_mem_escape t]
  rw [escaped] at unbroken
  rw [source, escaped, assemble, Statement.ofSource_utf8 written unbroken noNewline, ← escaped]
  exact assembleStatements_utf8 (Directive.unquote_escape t) (Statement.trim_quoted _)

/-- The text has slashes, a quote, a backslash, a newline and a stray byte in it, and the comment
has another quote and ends with a carriage return. -/
theorem string_data_survives_sample :
    ∃ assembly,
      standard.assemble (ascii ".utf8 \"a//\\\"b\\\\\\n" ++ [0xFF] ++ ascii "\" // \"c\r") =
          .ok assembly ∧ assembly.object.code = ascii "a//\"b\\\n" ++ [0xFF, 0] := by
  obtain ⟨data, -⟩ := string_data_survives
  have source : ascii ".utf8 \"" ++ Directive.escape (ascii "a//\"b\\\n" ++ [0xFF]) ++
      ascii "\" //" ++ ascii " \"c\r" =
      ascii ".utf8 \"a//\\\"b\\\\\\n" ++ [0xFF] ++ ascii "\" // \"c\r" := by
    decide
  rw [← source]
  exact data standard (ascii "a//\"b\\\n" ++ [0xFF]) (ascii " \"c\r") (by decide)

end Assembler

end Asm64
