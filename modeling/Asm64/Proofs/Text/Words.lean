import Asm64.Proofs.Text.Blank
import Asm64.Text.Utf8

/-!
# White space and words

A text is made of words with white space between them.  The first byte of a white space character
is no later byte of any character, so what stands in front of it is read as if the text ended
there, and the words of a text that is broken at white space are those of the one part and then
those of the other.
-/

namespace Asm64.Text

/-! ### White space characters -/

/-- One white space character. -/
def IsBlankCharacter (c : Text) : Prop := c ≠ [] ∧ blankLength c = c.length

theorem blankLength_append_of_ne_zero {t : Text} (blank : blankLength t ≠ 0) (rest : Text) :
    blankLength (t ++ rest) = blankLength t := by
  match t, rest with
  | [], _ => exact absurd rfl blank
  | [a], [] | [a], [_] | [a], _ :: _ :: _ => grind [blankLength]
  | [a, b], [] | [a, b], _ :: _ => grind [blankLength]
  | a :: b :: c :: t, _ => grind [blankLength]

theorem blankLength_eq_zero_of_append {t rest : Text} (solid : blankLength (t ++ rest) = 0) :
    blankLength t = 0 := by
  by_contra blank
  rw [blankLength_append_of_ne_zero blank rest] at solid
  exact blank solid

theorem isBlankCharacter_take {t : Text} (blank : blankLength t ≠ 0) :
    IsBlankCharacter (t.take (blankLength t)) := by
  have bound := blankLength_le_length t
  have same : blankLength (t.take (blankLength t)) = blankLength t := by
    match t with
    | [] => rfl
    | [a] => grind [blankLength]
    | [a, b] => grind [blankLength]
    | a :: b :: c :: t => grind [blankLength]
  refine ⟨?_, ?_⟩
  · intro empty
    rw [empty] at same
    exact blank same.symm
  · rw [same, List.length_take, Nat.min_eq_left bound]

theorem IsBlankCharacter.exists_cons {c : Text} (blank : IsBlankCharacter c) :
    ∃ first rest, c = first :: rest ∧ isTail first = false := by
  obtain ⟨nonempty, measured⟩ := blank
  match c with
  | [] => exact absurd rfl nonempty
  | [a] => exact ⟨a, [], rfl, by grind [blankLength, isTail]⟩
  | [a, b] => exact ⟨a, [b], rfl, by grind [blankLength, isTail]⟩
  | a :: b :: d :: rest =>
      exact ⟨a, b :: d :: rest, rfl, by grind [blankLength, blankLength.isWideBlank, isTail]⟩

/-- What stands in front of the first byte of a character is read as if the text ended there. -/
theorem blankLength_append_of_not_tail {first : UInt8} (starts : isTail first = false)
    (b : UInt8) (front rest : Text) :
    blankLength (b :: front ++ first :: rest) = blankLength (b :: front) := by
  match front with
  | [] => grind [isTail, blankLength, blankLength.isWideBlank]
  | [c] => grind [isTail, blankLength, blankLength.isWideBlank]
  | c :: d :: front => grind [blankLength]

theorem IsBlankCharacter.blankLength_append {c : Text} (blank : IsBlankCharacter c)
    (rest : Text) : blankLength (c ++ rest) = c.length := by
  have long : blankLength c ≠ 0 := by
    rw [blank.2]
    exact fun empty => blank.1 (List.length_eq_zero_iff.mp empty)
  rw [blankLength_append_of_ne_zero long, blank.2]

/-! ### Breaking a text at white space -/

theorem fieldsFrom_skip (done : List Text) (current : Text) (skip : Nat) (t : Text) :
    fieldsFrom done current skip t = fieldsFrom done current 0 (t.drop skip) := by
  induction t generalizing skip with
  | nil => cases skip <;> rfl
  | cons b rest inductionHypothesis =>
      cases skip with
      | zero => rfl
      | succ skip => exact inductionHypothesis skip

theorem fieldsFrom_done (done : List Text) (current : Text) (skip : Nat) (t : Text) :
    fieldsFrom done current skip t = done.reverse ++ fieldsFrom [] current skip t := by
  have finished (done : List Text) (current : Text) :
      fieldsFrom.finish done current = fieldsFrom.finish [] current ++ done := by
    unfold fieldsFrom.finish
    split <;> rfl
  induction t generalizing done current skip with
  | nil =>
      unfold fieldsFrom
      rw [finished, List.reverse_append]
  | cons b rest inductionHypothesis =>
      cases skip with
      | succ skip => exact inductionHypothesis done current skip
      | zero =>
          simp only [fieldsFrom]
          cases blankLength (b :: rest) with
          | zero => exact inductionHypothesis done (b :: current) 0
          | succ more =>
              dsimp only
              rw [inductionHypothesis, inductionHypothesis (fieldsFrom.finish [] current), finished,
                List.reverse_append, List.append_assoc]

theorem fieldsFrom_blank {c : Text} (blank : IsBlankCharacter c) (done : List Text)
    (current rest : Text) :
    fieldsFrom done current 0 (c ++ rest) =
      (fieldsFrom.finish done current).reverse ++ fields rest := by
  have measured := blank.blankLength_append rest
  obtain ⟨b, later, rfl, -⟩ := blank.exists_cons
  rw [List.cons_append, List.length_cons] at measured
  rw [List.cons_append, fieldsFrom, measured]
  dsimp only
  rw [fieldsFrom_skip, List.drop_left, fieldsFrom_done]
  rfl

theorem fieldsFrom_append_blank {c : Text} (blank : IsBlankCharacter c) (front rest : Text)
    {skip : Nat} (before : skip ≤ front.length) (done : List Text) (current : Text) :
    fieldsFrom done current skip (front ++ (c ++ rest)) =
      fieldsFrom done current skip front ++ fields rest := by
  -- A character that is passed over in the front ends there, as no other one starts inside it.
  induction front generalizing skip done current with
  | nil =>
      obtain rfl : skip = 0 := Nat.le_zero.mp before
      exact fieldsFrom_blank blank done current rest
  | cons b front inductionHypothesis =>
      cases skip with
      | succ skip => exact inductionHypothesis (Nat.le_of_succ_le_succ before) done current
      | zero =>
          have bound := blankLength_le_length (b :: front)
          have measured : blankLength (b :: (front ++ (c ++ rest))) = blankLength (b :: front) := by
            obtain ⟨first, later, rfl, starts⟩ := blank.exists_cons
            exact blankLength_append_of_not_tail starts b front (later ++ rest)
          rw [List.cons_append, fieldsFrom, fieldsFrom, measured]
          cases more : blankLength (b :: front) with
          | zero => exact inductionHypothesis (Nat.zero_le _) done (b :: current)
          | succ more =>
              rw [more, List.length_cons] at bound
              exact inductionHypothesis (Nat.le_of_succ_le_succ bound) _ []

theorem fields_append_blank {c : Text} (blank : IsBlankCharacter c) (front rest : Text) :
    fields (front ++ (c ++ rest)) = fields front ++ fields rest :=
  fieldsFrom_append_blank blank front rest (Nat.zero_le _) [] []

inductive IsBlank : Text → Prop
  | nil : IsBlank []
  | append {c rest : Text} : IsBlankCharacter c → IsBlank rest → IsBlank (c ++ rest)

theorem fields_blank_append {gap : Text} (blank : IsBlank gap) (rest : Text) :
    fields (gap ++ rest) = fields rest := by
  induction blank with
  | nil => rfl
  | append character _ inductionHypothesis =>
      rw [List.append_assoc, ← inductionHypothesis]
      exact fields_append_blank character [] _

theorem fields_append_of_isBlank {gap : Text} (blank : IsBlank gap) (front : Text) :
    fields (front ++ gap) = fields front := by
  cases blank with
  | nil => rw [List.append_nil]
  | append character blank =>
      have nothing := fields_blank_append blank []
      rw [List.append_nil] at nothing
      rw [fields_append_blank character, nothing]
      exact List.append_nil _

/-! ### Trimming -/

theorem dropMeasured_skip (measure : Text → Nat) (skip : Nat) (t : Text) :
    dropMeasured measure skip t = dropMeasured measure 0 (t.drop skip) := by
  induction t generalizing skip with
  | nil => cases skip <;> rfl
  | cons b rest inductionHypothesis =>
      cases skip with
      | zero => rfl
      | succ skip => exact inductionHypothesis skip

theorem dropMeasured_eq (measure : Text → Nat) (t : Text) :
    dropMeasured measure 0 t =
      if measure t = 0 then t else dropMeasured measure 0 (t.drop (measure t)) := by
  cases t with
  | nil => simp [dropMeasured]
  | cons b rest =>
      rw [dropMeasured]
      cases measure (b :: rest) with
      | zero => rfl
      | succ more => exact dropMeasured_skip measure more rest

theorem isBlank_flatten {characters : List Text}
    (blank : ∀ c ∈ characters, IsBlankCharacter c) : IsBlank characters.flatten := by
  induction characters with
  | nil => exact .nil
  | cons c rest inductionHypothesis =>
      rw [List.forall_mem_cons] at blank
      exact .append blank.1 (inductionHypothesis blank.2)

theorem exists_pieces_of_dropMeasured {measure : Text → Nat} (isPiece : Text → Prop)
    (piece : ∀ t : Text, measure t ≠ 0 → isPiece (t.take (measure t))) (t : Text) :
    ∃ pieces : List Text, (∀ p ∈ pieces, isPiece p) ∧
      t = pieces.flatten ++ dropMeasured measure 0 t ∧
      (measure (dropMeasured measure 0 t) = 0 ∨ dropMeasured measure 0 t = []) := by
  induction length : t.length using Nat.strongRecOn generalizing t with
  | ind _ inductionHypothesis =>
      by_cases stops : measure t = 0 ∨ t = []
      · have kept : dropMeasured measure 0 t = t := by
          rcases stops with none | rfl
          · rw [dropMeasured_eq, if_pos none]
          · rfl
        exact ⟨[], List.forall_mem_nil _, kept.symm, by rwa [kept]⟩
      · rw [not_or] at stops
        have shorter : (t.drop (measure t)).length < t.length := by
          have nonempty := List.length_pos_iff.mpr stops.2
          have positive := Nat.pos_of_ne_zero stops.1
          rw [List.length_drop]
          omega
        obtain ⟨pieces, all, rest, ends⟩ := inductionHypothesis _ (length ▸ shorter) _ rfl
        rw [dropMeasured_eq, if_neg stops.1]
        refine ⟨t.take (measure t) :: pieces, ?_, ?_, ends⟩
        · exact List.forall_mem_cons.mpr ⟨piece t stops.1, all⟩
        · rw [List.flatten_cons, List.append_assoc, ← rest, List.take_append_drop]

theorem exists_gap_of_trimStart (t : Text) :
    ∃ gap, IsBlank gap ∧ t = gap ++ trimStart t ∧ blankLength (trimStart t) = 0 := by
  obtain ⟨pieces, blank, whole, ends⟩ :=
    exists_pieces_of_dropMeasured IsBlankCharacter (fun _ long => isBlankCharacter_take long) t
  refine ⟨pieces.flatten, isBlank_flatten blank, whole, ?_⟩
  rcases ends with solid | nothing
  · exact solid
  · rw [trimStart, nothing]
    rfl

theorem isBlankCharacter_take_at_end {reversed : Text} (blank : blankLengthAtEnd reversed ≠ 0) :
    IsBlankCharacter (reversed.take (blankLengthAtEnd reversed)).reverse := by
  have bound := blankLengthAtEnd_le_length reversed
  have measured : blankLength (reversed.take (blankLengthAtEnd reversed)).reverse =
      blankLengthAtEnd reversed := by
    have single : (reversed.take 1).reverse = reversed.take 1 := by cases reversed <;> rfl
    unfold blankLengthAtEnd at blank ⊢
    grind
  refine ⟨?_, ?_⟩
  · intro empty
    rw [empty] at measured
    exact blank measured.symm
  · rw [measured, List.length_reverse, List.length_take, Nat.min_eq_left bound]

theorem exists_gap_of_trimEnd (t : Text) : ∃ gap, IsBlank gap ∧ t = trimEnd t ++ gap := by
  obtain ⟨pieces, blank, whole, -⟩ :=
    exists_pieces_of_dropMeasured (fun p => IsBlankCharacter p.reverse)
      (fun _ long => isBlankCharacter_take_at_end long) t.reverse
  refine ⟨(pieces.map List.reverse).reverse.flatten, isBlank_flatten ?_, ?_⟩
  · intro c member
    rw [List.mem_reverse, List.mem_map] at member
    obtain ⟨p, inPieces, rfl⟩ := member
    exact blank p inPieces
  · rw [← List.reverse_flatten, trimEnd, ← List.reverse_append, ← whole, List.reverse_reverse]

/-- Trimming takes away white space at both ends and nothing else. -/
theorem exists_gaps_of_trim (t : Text) :
    ∃ front back, IsBlank front ∧ IsBlank back ∧ t = front ++ (trim t ++ back) := by
  obtain ⟨front, frontBlank, start, -⟩ := exists_gap_of_trimStart t
  obtain ⟨back, backBlank, ends⟩ := exists_gap_of_trimEnd (trimStart t)
  exact ⟨front, back, frontBlank, backBlank, start.trans (congrArg (front ++ ·) ends)⟩

theorem dropMeasured_eq_self_iff {measure : Text → Nat} {t : Text} (nonempty : t ≠ []) :
    dropMeasured measure 0 t = t ↔ measure t = 0 := by
  rw [dropMeasured_eq]
  split
  · rename_i nothing
    simp [nothing]
  · rename_i something
    refine iff_of_false (fun same => ?_) something
    have rest : dropMeasured measure 0 (t.drop (measure t)) <:+ t.drop (measure t) :=
      dropMeasured_isSuffix _
    have length := rest.length_le
    have positive := List.length_pos_iff.mpr nonempty
    rw [same, List.length_drop] at length
    omega

theorem trimEnd_eq_self_iff {t : Text} (nonempty : t ≠ []) :
    trimEnd t = t ↔ blankLengthAtEnd t.reverse = 0 := by
  rw [trimEnd, List.reverse_eq_iff, dropMeasured_eq_self_iff (List.reverse_ne_nil_iff.mpr nonempty)]

theorem trimStart_and_trimEnd_of_trim {t : Text} (trimmed : trim t = t) :
    trimStart t = t ∧ trimEnd t = t := by
  obtain ⟨front, -, start, -⟩ := exists_gap_of_trimStart t
  obtain ⟨back, -, ends⟩ := exists_gap_of_trimEnd (trimStart t)
  rw [← trim, trimmed] at ends
  have nothing : front = [] := by
    have length := congrArg List.length start
    rw [ends, List.length_append, List.length_append] at length
    exact List.length_eq_zero_iff.mp (by omega)
  rw [nothing, List.nil_append] at start
  rw [trim, ← start] at trimmed
  exact ⟨start.symm, trimmed⟩

theorem blankLengthAtEnd_append_space {last : UInt8} {front : Text}
    (solid : blankLengthAtEnd (last :: front) = 0) (rest : Text) :
    blankLengthAtEnd (last :: front ++ 32 :: rest) = 0 := by
  match front, rest with
  | [], [] | [], a :: rest | [b], _ =>
      simp only [blankLengthAtEnd, List.cons_append, List.nil_append, List.take_succ_cons,
        List.take_zero, List.take_nil, List.reverse_cons, List.reverse_nil] at solid ⊢
      grind [blankLength, blankLength.isWideBlank]
  | b :: c :: front, _ => grind [blankLengthAtEnd]

/-- Bytes that are no white space at the end of a text are none behind a space either. -/
theorem trimEnd_append_space {t : Text} (nonempty : t ≠ []) (trimmed : trimEnd t = t)
    (front : Text) : trimEnd (front ++ 32 :: t) = front ++ 32 :: t := by
  rw [trimEnd_eq_self_iff nonempty] at trimmed
  rw [trimEnd_eq_self_iff (List.append_ne_nil_of_right_ne_nil _ (List.cons_ne_nil _ _)),
    List.reverse_append, List.reverse_cons, List.append_assoc, List.singleton_append]
  obtain ⟨last, before, reversed⟩ :=
    List.exists_cons_of_ne_nil (List.reverse_ne_nil_iff.mpr nonempty)
  rw [reversed] at trimmed ⊢
  exact blankLengthAtEnd_append_space trimmed _

theorem fields_trim (t : Text) : fields (trim t) = fields t := by
  obtain ⟨front, back, frontBlank, backBlank, whole⟩ := exists_gaps_of_trim t
  calc fields (trim t) = fields (trim t ++ back) :=
        (fields_append_of_isBlank backBlank (trim t)).symm
    _ = fields (front ++ (trim t ++ back)) := (fields_blank_append frontBlank _).symm
    _ = fields t := by rw [← whole]

theorem fields_trimStart (t : Text) : fields (trimStart t) = fields t := by
  obtain ⟨gap, blank, whole, -⟩ := exists_gap_of_trimStart t
  rw [← fields_blank_append blank, ← whole]

/-! ### Words -/

def IsWord (t : Text) : Prop := t ≠ [] ∧ ∀ back, back <:+ t → blankLength back = 0

theorem fieldsFrom_word {word : Text} (solid : ∀ back, back <:+ word → blankLength back = 0)
    (done : List Text) (current : Text) :
    fieldsFrom done current 0 word =
      (fieldsFrom.finish done (word.reverse ++ current)).reverse := by
  induction word generalizing current with
  | nil => rfl
  | cons b word inductionHypothesis =>
      rw [fieldsFrom, solid _ List.suffix_rfl, List.reverse_cons, List.append_assoc]
      exact inductionHypothesis (fun back ends => solid back (ends.trans (List.suffix_cons b word)))
        (b :: current)

theorem fields_of_isWord {word : Text} (isWord : IsWord word) : fields word = [word] := by
  have read := fieldsFrom_word isWord.2 [] []
  rw [List.append_nil] at read
  rw [fields, read, fieldsFrom.finish]
  simp [isWord.1]

/-- Words with white space between them, and perhaps around them. -/
inductive HasWords : Text → List Text → Prop
  | none {gap : Text} : IsBlank gap → HasWords gap []
  | last {gap word : Text} : IsBlank gap → IsWord word → HasWords (gap ++ word) [word]
  | cons {gap word c rest : Text} {words : List Text} : IsBlank gap → IsWord word →
      IsBlankCharacter c → HasWords rest words →
      HasWords (gap ++ (word ++ (c ++ rest))) (word :: words)

theorem fields_of_hasWords {t : Text} {words : List Text} (has : HasWords t words) :
    fields t = words := by
  induction has with
  | none blank =>
      have nothing := fields_blank_append blank []
      rwa [List.append_nil] at nothing
  | last blank isWord => rw [fields_blank_append blank, fields_of_isWord isWord]
  | cons blank isWord character _ inductionHypothesis =>
      rw [fields_blank_append blank, fields_append_blank character, fields_of_isWord isWord,
        inductionHypothesis]
      rfl

theorem exists_word {t : Text} (nonempty : t ≠ []) (starts : blankLength t = 0) :
    ∃ word rest, t = word ++ rest ∧ IsWord word ∧ (rest = [] ∨ blankLength rest ≠ 0) := by
  induction t with
  | nil => exact absurd rfl nonempty
  | cons b rest inductionHypothesis =>
      have extend {word later : Text} (whole : rest = word ++ later)
          (solid : ∀ back, back <:+ word → blankLength back = 0) : IsWord (b :: word) := by
        refine ⟨List.cons_ne_nil _ _, ?_⟩
        intro back ends
        rcases List.suffix_cons_iff.mp ends with rfl | later
        · rw [whole, ← List.cons_append] at starts
          exact blankLength_eq_zero_of_append starts
        · exact solid back later
      by_cases stops : rest = [] ∨ blankLength rest ≠ 0
      · refine ⟨[b], rest, rfl, extend (List.nil_append rest).symm ?_, stops⟩
        intro back ends
        rw [List.suffix_nil.mp ends]
        rfl
      · rw [not_or, not_not] at stops
        obtain ⟨word, later, rfl, isWord, ends⟩ := inductionHypothesis stops.1 stops.2
        exact ⟨b :: word, later, rfl, extend rfl isWord.2, ends⟩

theorem exists_hasWords (t : Text) : ∃ words, HasWords t words := by
  induction length : t.length using Nat.strongRecOn generalizing t with
  | ind _ inductionHypothesis =>
      obtain ⟨gap, blank, whole, starts⟩ := exists_gap_of_trimStart t
      by_cases nonempty : trimStart t = []
      · rw [nonempty, List.append_nil] at whole
        exact ⟨[], whole ▸ .none blank⟩
      · obtain ⟨word, rest, started, isWord, ends⟩ := exists_word nonempty starts
        rw [started] at whole
        rcases ends with rfl | breaks
        · rw [List.append_nil] at whole
          exact ⟨[word], whole ▸ .last blank isWord⟩
        · have shorter : (rest.drop (blankLength rest)).length < t.length := by
            have positive := List.length_pos_iff.mpr isWord.1
            rw [whole, List.length_append, List.length_append, List.length_drop]
            omega
          obtain ⟨words, has⟩ := inductionHypothesis _ (length ▸ shorter) _ rfl
          have more := HasWords.cons blank isWord (isBlankCharacter_take breaks) has
          rw [List.take_append_drop, ← whole] at more
          exact ⟨word :: words, more⟩

theorem fields_eq_iff {t : Text} {words : List Text} : fields t = words ↔ HasWords t words := by
  constructor
  · rintro rfl
    obtain ⟨words, has⟩ := exists_hasWords t
    rwa [fields_of_hasWords has]
  · exact fields_of_hasWords

/-! ### Texts without their white space -/

def withoutBlanks (t : Text) : Text := (fields t).flatten

theorem flatten_finish (done : List Text) (current : Text) :
    (fieldsFrom.finish done current).reverse.flatten =
      done.reverse.flatten ++ current.reverse := by
  unfold fieldsFrom.finish
  split
  · rename_i nothing
    rw [List.isEmpty_iff.mp nothing]
    exact (List.append_nil _).symm
  · rw [List.reverse_cons, List.flatten_append, List.flatten_singleton]

/-- What was read before is kept, wherever its words end. -/
theorem flatten_fieldsFrom (done : List Text) (current : Text) (skip : Nat) (t : Text) :
    (fieldsFrom done current skip t).flatten =
      done.reverse.flatten ++ (current.reverse ++ (fieldsFrom [] [] skip t).flatten) := by
  induction t generalizing done current skip with
  | nil =>
      simp only [fieldsFrom, flatten_finish]
      simp
  | cons b rest inductionHypothesis =>
      cases skip with
      | succ skip => exact inductionHypothesis done current skip
      | zero =>
          simp only [fieldsFrom]
          cases blankLength (b :: rest) with
          | zero =>
              dsimp only
              rw [inductionHypothesis, inductionHypothesis [] [b]]
              simp
          | succ more =>
              dsimp only
              rw [inductionHypothesis, inductionHypothesis (fieldsFrom.finish [] []), flatten_finish,
                flatten_finish]
              simp

section

variable {stop : UInt8} (solid : isSolid stop = true)

include solid

theorem flatten_fieldsFrom_append (front back : Text) {skip : Nat} (before : skip ≤ front.length)
    (done : List Text) (current : Text) :
    (fieldsFrom done current skip (front ++ stop :: back)).flatten =
      (fieldsFrom done current skip front).flatten ++ stop :: withoutBlanks back := by
  induction front generalizing skip done current with
  | nil =>
      obtain rfl : skip = 0 := Nat.le_zero.mp before
      have read : fieldsFrom done current 0 (stop :: back) =
          fieldsFrom done (stop :: current) 0 back := by
        rw [fieldsFrom, blankLength_cons solid]
      rw [List.nil_append, read, flatten_fieldsFrom, flatten_fieldsFrom done current]
      simp [withoutBlanks, fields, fieldsFrom, fieldsFrom.finish]
  | cons b front inductionHypothesis =>
      cases skip with
      | succ skip => exact inductionHypothesis (Nat.le_of_succ_le_succ before) done current
      | zero =>
          have bound := blankLength_le_length (b :: front)
          have measured := blankLength_append solid b front back
          rw [List.cons_append] at measured ⊢
          rw [fieldsFrom, fieldsFrom, measured]
          cases more : blankLength (b :: front) with
          | zero => exact inductionHypothesis (Nat.zero_le _) done (b :: current)
          | succ more =>
              rw [more, List.length_cons] at bound
              exact inductionHypothesis (Nat.le_of_succ_le_succ bound) _ []

theorem withoutBlanks_append (front back : Text) :
    withoutBlanks (front ++ stop :: back) = withoutBlanks front ++ stop :: withoutBlanks back :=
  flatten_fieldsFrom_append solid front back (Nat.zero_le _) [] []

end

end Asm64.Text
