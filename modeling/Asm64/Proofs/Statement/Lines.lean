import Asm64.Proofs.Text.Lines
import Asm64.Proofs.Text.Words

/-!
# The statements of a source

Every line gives its own statements, so those of two sources with a newline between them are those
of the one and then those of the other, further down.  A line is cut at the colons of its labels
and nowhere else, and white space is all that is lost.
-/

namespace Asm64.Statement

/-! ### Numbered lines -/

def ofNumberedLines (first : Nat) (lines : List Text) : List (Nat × Statement) :=
  (lines.zipIdx first).flatMap fun (line, number) =>
    (ofLine (stripComment line)).map fun statement => (number, statement)

theorem ofNumberedLines_append (first : Nat) (front back : List Text) :
    ofNumberedLines first (front ++ back) =
      ofNumberedLines first front ++ ofNumberedLines (first + front.length) back := by
  rw [ofNumberedLines, List.zipIdx_append, List.flatMap_append]
  rfl

theorem ofNumberedLines_add (first more : Nat) (lines : List Text) :
    ofNumberedLines (first + more) lines =
      (ofNumberedLines first lines).map fun numbered => (numbered.1 + more, numbered.2) := by
  induction lines generalizing first with
  | nil => rfl
  | cons line rest inductionHypothesis =>
      have later := inductionHypothesis (first + 1)
      unfold ofNumberedLines at later ⊢
      rw [List.zipIdx_cons, List.zipIdx_cons, List.flatMap_cons, List.flatMap_cons, List.map_append,
        ← later, Nat.add_right_comm, List.map_map]
      rfl

theorem ofNumberedLines_eq (first : Nat) (lines : List Text) :
    ofNumberedLines first lines =
      ((lines.map fun line => ofLine (stripComment line)).zipIdx first).flatMap
        fun (statements, number) => statements.map fun statement => (number, statement) := by
  rw [ofNumberedLines, List.zipIdx_map, List.flatMap_map]
  rfl

theorem ofSource_append (front back : Text) :
    ofSource (front ++ 10 :: back) = ofSource (front ++ [10]) ++
      (ofSource back).map fun numbered =>
        (numbered.1 + (1 + front.count 10), numbered.2) := by
  have whole := ofNumberedLines_append 1 (Text.lines (front ++ [10])) (Text.lines back)
  rw [← Text.lines_append, Text.length_lines_newline, ofNumberedLines_add] at whole
  exact whole

/-! ### Comments -/

/-- No string literal is open behind a text, if one is open before it or none.  In a literal, a
backslash keeps the byte after it from ending the literal. -/
inductive ClosesLiterals : (inString : Bool) → Text → Prop where
  | nil : ClosesLiterals false []
  | plain {b : UInt8} {t : Text} : b ≠ 34 → ClosesLiterals false t → ClosesLiterals false (b :: t)
  | opens {t : Text} : ClosesLiterals true t → ClosesLiterals false (34 :: t)
  | closes {t : Text} : ClosesLiterals false t → ClosesLiterals true (34 :: t)
  | content {b : UInt8} {t : Text} : b ≠ 34 → b ≠ 92 → ClosesLiterals true t →
    ClosesLiterals true (b :: t)
  | escaped {b : UInt8} {t : Text} : ClosesLiterals true t → ClosesLiterals true (92 :: b :: t)

theorem closesLiterals_quote_iff {inString : Bool} {t : Text} :
    ClosesLiterals inString (34 :: t) ↔ ClosesLiterals (!inString) t := by
  constructor
  · intro closes
    cases closes with
    | plain other => exact absurd rfl other
    | content other => exact absurd rfl other
    | opens later | closes later => exact later
  · cases inString with
    | false => exact .opens
    | true => exact .closes

theorem closesLiterals_cons_iff {inString : Bool} {b : UInt8} {t : Text} (unquoted : b ≠ 34)
    (unescaped : ¬(inString = true ∧ b = 92)) :
    ClosesLiterals inString (b :: t) ↔ ClosesLiterals inString t := by
  constructor
  · intro closes
    cases closes with
    | plain _ later | content _ _ later => exact later
    | opens | closes => exact absurd rfl unquoted
    | escaped => exact absurd ⟨rfl, rfl⟩ unescaped
  · cases inString with
    | false => exact .plain unquoted
    | true => exact .content unquoted fun backslash => unescaped ⟨rfl, backslash⟩

/-- A comment starts behind `front`, with two slashes that are not part of a string literal. -/
def CommentBehind (inString : Bool) (t front : Text) : Prop :=
  ∃ rest, t = front ++ 47 :: 47 :: rest ∧ ClosesLiterals inString front

/-- All of a text that stands in front of its first comment. -/
structure IsUncommented (inString : Bool) (t kept : Text) : Prop where
  cut : kept = t ∨ CommentBehind inString t kept
  first : ∀ front, CommentBehind inString t front → kept <+: front

theorem IsUncommented.cons {inString later : Bool} {b : UInt8} {t kept : Text}
    (uncommented : IsUncommented later t kept)
    (closes_iff : ∀ front, ClosesLiterals inString (b :: front) ↔ ClosesLiterals later front)
    (noComment : ¬CommentBehind inString (b :: t) []) :
    IsUncommented inString (b :: t) (b :: kept) where
  cut := by
    rcases uncommented.cut with rfl | ⟨rest, rfl, closed⟩
    · exact .inl rfl
    · exact .inr ⟨rest, rfl, (closes_iff kept).mpr closed⟩
  first := by
    rintro front ⟨rest, same, closed⟩
    cases front with
    | nil => exact absurd ⟨rest, same, closed⟩ noComment
    | cons _ front =>
        obtain ⟨rfl, rfl⟩ := List.cons.inj same
        exact (List.prefix_cons_inj _).mpr
          (uncommented.first front ⟨rest, rfl, (closes_iff front).mp closed⟩)

theorem IsUncommented.escaped {b : UInt8} {t kept : Text}
    (uncommented : IsUncommented true t kept) :
    IsUncommented true (92 :: b :: t) (92 :: b :: kept) where
  cut := by
    rcases uncommented.cut with rfl | ⟨rest, rfl, closed⟩
    · exact .inl rfl
    · exact .inr ⟨rest, rfl, .escaped closed⟩
  first := by
    rintro front ⟨rest, same, closed⟩
    cases closed with
    | closes => cases same
    | content _ other => exact absurd (List.cons.inj same).1.symm other
    | escaped closed =>
        simp only [List.cons_append, List.cons.injEq, true_and] at same
        obtain ⟨rfl, rfl⟩ := same
        exact (List.prefix_append_right_inj [92, _]).mpr
          (uncommented.first _ ⟨rest, rfl, closed⟩)

theorem stripCommentFrom_eq (seen : Text) (inString : Bool) (t : Text) :
    ∃ kept, stripCommentFrom seen inString t = seen.reverse ++ kept ∧
      IsUncommented inString t kept := by
  fun_induction stripCommentFrom seen inString t with
  | case1 seen inString =>
      refine ⟨[], by simp, .inl rfl, ?_⟩
      rintro front ⟨rest, same, -⟩
      simp at same
  | case2 seen inString b escapes =>
      obtain ⟨rfl, rfl⟩ := escapes
      refine ⟨[92], by simp, .inl rfl, ?_⟩
      rintro front ⟨rest, same, -⟩
      have lengths := congrArg List.length same
      simp only [List.length_cons, List.length_nil, List.length_append] at lengths
      omega
  | case3 seen inString b escapes e rest inductionHypothesis =>
      obtain ⟨rfl, rfl⟩ := escapes
      obtain ⟨kept, stripped, uncommented⟩ := inductionHypothesis
      exact ⟨92 :: e :: kept, by simp [stripped], uncommented.escaped⟩
  | case4 seen inString rest escapes inductionHypothesis =>
      obtain ⟨kept, stripped, uncommented⟩ := inductionHypothesis
      refine ⟨34 :: kept, by simp [stripped],
        uncommented.cons (fun _ => closesLiterals_quote_iff) ?_⟩
      rintro ⟨_, same, -⟩
      cases same
  | case5 seen inString b rest escapes unquoted comment =>
      obtain ⟨outside, rfl, starts⟩ := comment
      cases inString with
      | true => cases outside
      | false =>
          obtain ⟨others, rfl⟩ := List.head?_eq_some_iff.mp starts
          exact ⟨[], by simp, .inr ⟨others, rfl, .nil⟩, fun front _ => List.nil_prefix⟩
  | case6 seen inString b rest escapes unquoted noComment inductionHypothesis =>
      obtain ⟨kept, stripped, uncommented⟩ := inductionHypothesis
      refine ⟨b :: kept, by simp [stripped],
        uncommented.cons (fun _ => closesLiterals_cons_iff unquoted escapes) ?_⟩
      rintro ⟨others, same, closed⟩
      cases closed
      cases same
      exact noComment ⟨rfl, rfl, rfl⟩

/-- What is kept of a line is the text up to the first two slashes that are not part of a string
literal, or all of it if there are none. -/
theorem isUncommented_stripComment (line : Text) :
    IsUncommented false line (stripComment line) := by
  obtain ⟨kept, stripped, uncommented⟩ := stripCommentFrom_eq [] false line
  rwa [stripComment, stripped]

theorem stripComment_isPrefix (line : Text) : stripComment line <+: line := by
  rcases (isUncommented_stripComment line).cut with whole | ⟨rest, same, -⟩
  · rw [whole]
  · exact ⟨_, same.symm⟩

/-! ### One line -/

theorem kind_directiveContent (t : Text) : (directiveContent t).kind ≠ .label := by
  unfold directiveContent
  dsimp only
  split <;> exact nofun

theorem kind_instructionContent (t : Text) : (instructionContent t).kind ≠ .label := by
  unfold instructionContent
  dsimp only
  split <;> exact nofun

theorem exists_front_of_labelName? {t name : Text} (found : labelName? (Text.trim t) = some name) :
    ∃ front rest, Text.cut 58 t = some (front, rest) ∧ name = Text.trimStart front := by
  by_cases colon : 58 ∈ t
  · obtain ⟨front, rest, rfl, first⟩ := List.eq_append_cons_of_mem colon
    refine ⟨front, rest, Text.cut_append first rest, ?_⟩
    have solid : Text.isSolid 58 = true := by decide
    rw [labelName?, Text.trim_append solid, Text.cut_append (Text.not_mem_trimStart first)] at found
    dsimp only at found
    split at found <;> cases found
    rfl
  · have absent : 58 ∉ Text.trim t := Text.not_mem_trimEnd (Text.not_mem_trimStart colon)
    rw [labelName?, Text.cut_eq_none absent] at found
    cases found

/-- A statement is a label, which ends with the first colon, or all of the line. -/
theorem parse_cases (t : Text) :
    (∃ name front rest, (parse t).content = .label name ∧ Text.cut 58 t = some (front, rest) ∧
        (parse t).text = Text.trimStart front ++ [58]) ∨
      (parse t).content.kind ≠ .label ∧ (parse t).text = Text.trim t := by
  unfold parse parseTrimmed
  split
  · rename_i empty
    exact .inr ⟨nofun, empty.symm⟩
  · rename_i written
    exact .inr ⟨kind_directiveContent _, written.symm ▸ rfl⟩
  · split
    · rename_i name found
      obtain ⟨front, rest, cut, rfl⟩ := exists_front_of_labelName? found
      exact .inl ⟨_, front, rest, rfl, cut, rfl⟩
    · exact .inr ⟨kind_instructionContent _, rfl⟩

/-- The statements of a line: labels, then one statement of any kind, which say together what the
line says. -/
structure Reads (line : Text) (statements : List Statement) : Prop where
  labels : ∃ front last, statements = front ++ [last] ∧ ∀ s ∈ front, s.content.kind = .label
  complete : Text.withoutBlanks (statements.flatMap (·.text)) = Text.withoutBlanks line

theorem Reads.single {line : Text} {s : Statement}
    (complete : Text.withoutBlanks s.text = Text.withoutBlanks line) : Reads line [s] := by
  refine ⟨⟨[], s, rfl, List.forall_mem_nil _⟩, ?_⟩
  rw [List.flatMap_singleton]
  exact complete

theorem withoutBlanks_trim (t : Text) : Text.withoutBlanks (Text.trim t) = Text.withoutBlanks t :=
  congrArg List.flatten (Text.fields_trim t)

/-- A label says what stands up to the colon it is cut at. -/
theorem withoutBlanks_label (front rest : Text) :
    Text.withoutBlanks (Text.trimStart front ++ 58 :: rest) =
      Text.withoutBlanks (front ++ 58 :: rest) := by
  have solid : Text.isSolid 58 = true := by decide
  rw [Text.withoutBlanks_append solid, Text.withoutBlanks_append solid]
  exact congrArg (List.flatten · ++ _) (Text.fields_trimStart front)

/-- What stands behind the colon is read as a line of its own. -/
theorem Reads.label {line front rest : Text} {s : Statement} {statements : List Statement}
    (isLabel : s.content.kind = .label) (cut : Text.cut 58 line = some (front, rest))
    (text : s.text = Text.trimStart front ++ [58]) (others : Reads rest statements) :
    Reads line (s :: statements) := by
  obtain ⟨⟨before, last, rfl, labels⟩, complete⟩ := others
  obtain ⟨rfl, -⟩ := Text.eq_append_of_cut cut
  refine ⟨⟨s :: before, last, rfl, List.forall_mem_cons.mpr ⟨isLabel, labels⟩⟩, ?_⟩
  have solid : Text.isSolid 58 = true := by decide
  rw [List.flatMap_cons, text, List.append_assoc, List.singleton_append, withoutBlanks_label,
    Text.withoutBlanks_append solid, complete, Text.withoutBlanks_append solid]

theorem parse_of_label {line name : Text} (label : (parse line).content = .label name) :
    ∃ front rest, Text.cut 58 line = some (front, rest) ∧
      (parse line).text = Text.trimStart front ++ [58] := by
  rcases parse_cases line with ⟨_, front, rest, -, cut, text⟩ | ⟨other, -⟩
  · exact ⟨front, rest, cut, text⟩
  · rw [label] at other
    exact absurd rfl other

theorem reads_ofLine (line : Text) : Reads line (ofLine line) := by
  fun_induction ofLine line with
  | case1 line name label front rest found blank =>
      obtain ⟨_, _, cut, text⟩ := parse_of_label label
      rw [found] at cut
      cases cut
      obtain ⟨rfl, -⟩ := Text.eq_append_of_cut found
      have nothing : Text.withoutBlanks rest = Text.withoutBlanks [] := by
        rw [← withoutBlanks_trim, List.isEmpty_iff.mp blank]
      have solid : Text.isSolid 58 = true := by decide
      apply Reads.single
      rw [text, withoutBlanks_label, Text.withoutBlanks_append solid, ← nothing,
        Text.withoutBlanks_append solid]
  | case2 line name label front rest found more inductionHypothesis =>
      obtain ⟨_, _, cut, text⟩ := parse_of_label label
      rw [found] at cut
      cases cut
      exact .label (congrArg Content.kind label) found text inductionHypothesis
  | case3 line name label absent =>
      obtain ⟨_, _, cut, -⟩ := parse_of_label label
      rw [absent] at cut
      cases cut
  | case4 line noLabel =>
      rcases parse_cases line with ⟨name, -, -, label, -⟩ | ⟨-, text⟩
      · exact absurd label (noLabel name)
      · apply Reads.single
        rw [text, withoutBlanks_trim]

/-! ### What statements are made of -/

theorem exists_suffix_of_mem_ofLine (line : Text) :
    ∀ s ∈ ofLine line, ∃ t, t <:+ line ∧ s = parse t := by
  have single (line : Text) : ∀ s ∈ [parse line], ∃ t, t <:+ line ∧ s = parse t := by
    intro s member
    exact ⟨line, List.suffix_rfl, List.mem_singleton.mp member⟩
  fun_induction ofLine line with
  | case1 line | case3 line | case4 line => exact single line
  | case2 line name label front rest found more inductionHypothesis =>
      obtain ⟨rfl, -⟩ := Text.eq_append_of_cut found
      refine List.forall_mem_cons.mpr ⟨⟨_, List.suffix_rfl, rfl⟩, ?_⟩
      intro s member
      obtain ⟨t, ends, parsed⟩ := inductionHypothesis s member
      exact ⟨t, ends.trans ((List.suffix_cons 58 rest).trans (List.suffix_append _ _)), parsed⟩

theorem not_mem_text_parse {b : UInt8} (other : b ≠ 58) {t : Text} (absent : b ∉ t) :
    b ∉ (parse t).text := by
  rcases parse_cases t with ⟨_, front, rest, -, cut, text⟩ | ⟨-, text⟩
  · obtain ⟨rfl, -⟩ := Text.eq_append_of_cut cut
    rw [List.mem_append, not_or] at absent
    rw [text, List.mem_append, List.mem_singleton, not_or]
    exact ⟨Text.not_mem_trimStart absent.1, other⟩
  · rw [text]
    exact Text.not_mem_trimEnd (Text.not_mem_trimStart absent)

theorem content_of_text_eq_nil {t : Text} (empty : (parse t).text = []) :
    (parse t).content = .blank := by
  rcases parse_cases t with ⟨_, front, rest, -, -, text⟩ | ⟨-, text⟩
  · rw [text] at empty
    exact absurd empty (List.append_ne_nil_of_right_ne_nil _ (List.cons_ne_nil _ _))
  · rw [text] at empty
    rw [parse, empty]
    rfl

theorem dropCarriageReturn_isPrefix (line : Text) : Text.dropCarriageReturn line <+: line := by
  unfold Text.dropCarriageReturn
  split
  · exact List.dropLast_prefix line
  · exact List.prefix_rfl

theorem exists_parse_of_mem_ofSource {source : Text} :
    ∀ numbered ∈ ofSource source, ∃ t, 10 ∉ t ∧ numbered.2 = parse t := by
  intro numbered member
  have inLines := List.mem_map_of_mem (f := Prod.snd) member
  rw [map_snd_ofSource, ofLines, List.mem_flatMap] at inLines
  obtain ⟨line, inSource, inLine⟩ := inLines
  obtain ⟨raw, inRaw, rfl⟩ := List.mem_map.mp inSource
  obtain ⟨t, ends, parsed⟩ := exists_suffix_of_mem_ofLine _ _ inLine
  refine ⟨t, ?_, parsed⟩
  intro inText
  have inStart := (stripComment_isPrefix _).subset (ends.subset inText)
  exact Text.unbroken_of_mem_rawLines raw inRaw ((dropCarriageReturn_isPrefix raw).subset inStart)

theorem unbroken_of_mem_ofSource {source : Text} :
    ∀ numbered ∈ ofSource source, 10 ∉ numbered.2.text := by
  intro numbered member
  obtain ⟨t, unbroken, parsed⟩ := exists_parse_of_mem_ofSource numbered member
  rw [parsed]
  exact not_mem_text_parse (by decide) unbroken

/-! ### All lines -/

/-- A source is read line by line.  The statements of two sources with a newline between them are
those of the one and those of the other, further down; a buffer that is sized after the source cuts
no line off; and each line gives labels and one statement after them, under its number, which say
all that stands in front of its comment and its carriage return. -/
theorem sources_are_read_line_by_line :
    (∀ front back : Text, ofSource (front ++ 10 :: back) = ofSource (front ++ [10]) ++
      (ofSource back).map fun numbered => (numbered.1 + (1 + front.count 10), numbered.2)) ∧
    (∀ source : Text, Text.scanLines (source.length + 1) source = Text.lines source) ∧
    ∀ source : Text, ∃ (raw : List Text) (groups : List (List Statement)),
      Text.HasLines source raw ∧
      List.Forall₂ (fun line => Reads (stripComment (Text.dropCarriageReturn line))) raw groups ∧
      ofSource source = (groups.zipIdx 1).flatMap
        fun (statements, number) => statements.map fun statement => (number, statement) := by
  refine ⟨ofSource_append, fun source => Text.scanLines_eq (Nat.lt_succ_self _), fun source => ?_⟩
  refine ⟨Text.rawLines source,
    (Text.lines source).map fun line => ofLine (stripComment line), Text.hasLines_rawLines source,
    ?_, ofNumberedLines_eq 1 _⟩
  rw [Text.lines, List.map_map, List.forall₂_map_right_iff, List.forall₂_same]
  exact fun line _ => reads_ofLine _

end Asm64.Statement
