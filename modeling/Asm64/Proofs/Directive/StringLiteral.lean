import Asm64.Directive
import Asm64.Proofs.Success

/-!
# String literals

Between its quotes a literal is a sequence of pieces, each of which writes one byte: a byte that is
neither a quote nor a backslash, or one of six escape sequences.  Nothing else can be read, and
every text can be written.
-/

namespace Asm64.Directive

/-- The ways to write a byte in a string literal. -/
inductive Writes : Text → UInt8 → Prop
  | plain {b : UInt8} (noQuote : b ≠ 34) (noBackslash : b ≠ 92) : Writes [b] b
  | newline : Writes (ascii "\\n") 10
  | zero : Writes (ascii "\\0") 0
  | carriageReturn : Writes (ascii "\\r") 13
  | tab : Writes (ascii "\\t") 9
  | backslash : Writes (ascii "\\\\") 92
  | quote : Writes (ascii "\\\"") 34

theorem writes_of_escaped? {code byte : UInt8} (escape : escaped? code = some byte) :
    Writes [92, code] byte := by
  unfold escaped? at escape
  split at escape <;> cases escape
  · exact .newline
  · exact .zero
  · exact .carriageReturn
  · exact .tab
  · exact .backslash
  · exact .quote

/-! ### Reading -/

theorem unescapeFrom_append {piece : Text} {b : UInt8} (writes : Writes piece b)
    (seen : Text) (offset : Nat) (rest : Text) :
    unescapeFrom seen offset (piece ++ rest) =
      unescapeFrom (b :: seen) (offset + piece.length) rest := by
  cases writes with
  | plain noQuote noBackslash =>
      rw [List.singleton_append, unescapeFrom.eq_def]
      simp only [noQuote, noBackslash, if_false]
      rfl
  | newline | zero | carriageReturn | tab | backslash | quote => rfl

theorem unescapeFrom_flatten {pieces : List Text} {t : Text}
    (written : List.Forall₂ Writes pieces t) (seen : Text) (offset : Nat) :
    unescapeFrom seen offset pieces.flatten = .ok (seen.reverse ++ t) := by
  induction written generalizing seen offset with
  | nil => rw [List.append_nil]; rfl
  | cons writes _ inductionHypothesis =>
      rw [List.flatten_cons, unescapeFrom_append writes, inductionHypothesis]
      simp

theorem exists_pieces_of_unescapeFrom {seen inner t : Text} {offset : Nat}
    (read : unescapeFrom seen offset inner = .ok t) :
    ∃ pieces values, List.Forall₂ Writes pieces values ∧ inner = pieces.flatten ∧
      t = seen.reverse ++ values := by
  -- The reader takes one byte or a backslash and its code at a time, which are the pieces.
  fun_induction unescapeFrom seen offset inner with
  | case1 seen offset =>
      cases read
      exact ⟨[], [], .nil, rfl, (List.append_nil _).symm⟩
  | case2 | case3 | case5 => cases read
  | case4 seen offset code rest byte escape _ inductionHypothesis =>
      obtain ⟨pieces, values, written, rfl, rfl⟩ := inductionHypothesis read
      exact ⟨_, _, .cons (writes_of_escaped? escape) written, by simp, by simp⟩
  | case6 seen offset b rest noQuote noBackslash inductionHypothesis =>
      obtain ⟨pieces, values, written, rfl, rfl⟩ := inductionHypothesis read
      exact ⟨_, _, .cons (.plain noQuote noBackslash) written, by simp, by simp⟩

def quoted (inner : Text) : Text := ascii "\"" ++ inner ++ ascii "\""

theorem quoted_eq (inner : Text) : quoted inner = 34 :: (inner ++ [34]) := by
  simp [quoted, ascii]

/-- What can be read as a string literal, and as which text. -/
theorem unquote_eq_ok_iff {s t : Text} :
    unquote s = .ok t ↔
      ∃ pieces, List.Forall₂ Writes pieces t ∧ s = quoted pieces.flatten := by
  simp only [quoted_eq]
  constructor
  · intro read
    unfold unquote at read
    split at read
    · split at read
      · rename_i rest last
        obtain ⟨pieces, values, written, inner, rfl⟩ := exists_pieces_of_unescapeFrom read
        refine ⟨pieces, written, ?_⟩
        rw [← inner, List.dropLast_append_getLast? 34 last]
      · cases read
    · cases read
  · rintro ⟨pieces, written, rfl⟩
    rw [unquote, if_pos List.getLast?_concat, List.dropLast_concat, unescapeFrom_flatten written]
    rfl

/-! ### Writing -/

/-- A byte as it is written in a literal: a newline, zero, carriage return, tab, backslash or quote
by its escape sequence, any other byte as it is. -/
def escapeByte (b : UInt8) : Text :=
  match b with
  | 10 => ascii "\\n"
  | 0 => ascii "\\0"
  | 13 => ascii "\\r"
  | 9 => ascii "\\t"
  | 92 => ascii "\\\\"
  | 34 => ascii "\\\""
  | b => [b]

/-- The inside of the literal for a text. -/
def escape (t : Text) : Text := t.flatMap escapeByte

theorem writes_escapeByte (b : UInt8) : Writes (escapeByte b) b := by
  unfold escapeByte
  split
  · exact .newline
  · exact .zero
  · exact .carriageReturn
  · exact .tab
  · exact .backslash
  · exact .quote
  · rename_i noBackslash noQuote
    exact .plain noQuote noBackslash

theorem forall₂_writes_escapeByte (t : Text) :
    List.Forall₂ Writes (t.map escapeByte) t := by
  rw [List.forall₂_map_left_iff, List.forall₂_same]
  exact fun b _ => writes_escapeByte b

theorem escape_eq (t : Text) : escape t = (t.map escapeByte).flatten := List.flatMap_def

theorem unquote_escape (t : Text) : unquote (quoted (escape t)) = .ok t :=
  unquote_eq_ok_iff.mpr ⟨_, forall₂_writes_escapeByte t, congrArg quoted (escape_eq t)⟩

theorem newline_not_mem_escape (t : Text) : 10 ∉ escape t := by
  rw [escape, List.mem_flatMap]
  rintro ⟨b, -, inPiece⟩
  unfold escapeByte at inPiece
  split at inPiece
  case h_7 noNewline _ _ _ _ _ => exact noNewline (List.mem_singleton.mp inPiece).symm
  all_goals exact absurd inPiece (by decide)

end Asm64.Directive
