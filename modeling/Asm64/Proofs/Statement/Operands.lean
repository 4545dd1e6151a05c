import Asm64.Proofs.Statement.Lines

/-!
# The operands of an instruction

Operands stand between the commas outside brackets.  A text is cut at all of these commas and at no
others, and only white space next to them is lost.  So an instruction that is written from a
mnemonic and its operands is read back as these.
-/

namespace Asm64.Statement

/-! ### Commas outside brackets -/

/-- The number of brackets that a text opens, less the number of those that it closes. -/
def bracketDepth (t : Text) : Int := t.count 91 - t.count 93

theorem bracketDepth_cons (b : UInt8) (t : Text) :
    bracketDepth (b :: t) = depthAfter 0 b + bracketDepth t := by
  unfold bracketDepth depthAfter
  grind

theorem depthAfter_eq_add (depth : Int) (b : UInt8) :
    depthAfter depth b = depth + depthAfter 0 b := by
  unfold depthAfter
  grind

/-- Whether the byte at a place is a comma outside brackets, when some brackets are open in front of
the text. -/
def SeparatesAt (depth : Int) (t : Text) (i : Nat) : Prop :=
  t[i]? = some 44 ∧ depth + bracketDepth (t.take i) = 0

instance (depth : Int) (t : Text) (i : Nat) : Decidable (SeparatesAt depth t i) :=
  inferInstanceAs (Decidable (_ ∧ _))

def separatorCount (depth : Int) (t : Text) : Nat :=
  (List.range t.length).countP fun i => SeparatesAt depth t i

theorem separatesAt_zero {depth : Int} {b : UInt8} {t : Text} :
    SeparatesAt depth (b :: t) 0 ↔ b = 44 ∧ depth = 0 := by
  simp [SeparatesAt, bracketDepth]

theorem separatesAt_succ {depth : Int} {b : UInt8} {t : Text} {i : Nat} :
    SeparatesAt depth (b :: t) (i + 1) ↔ SeparatesAt (depthAfter depth b) t i := by
  rw [SeparatesAt, SeparatesAt, List.getElem?_cons_succ, List.take_succ_cons, bracketDepth_cons,
    depthAfter_eq_add depth, Int.add_assoc]

theorem separatorCount_cons (depth : Int) (b : UInt8) (t : Text) :
    separatorCount depth (b :: t) =
      (if b = 44 ∧ depth = 0 then 1 else 0) + separatorCount (depthAfter depth b) t := by
  unfold separatorCount
  rw [List.length_cons, List.range_succ_eq_map, List.countP_cons, List.countP_map]
  simp only [separatesAt_zero, separatesAt_succ, Function.comp_def, decide_eq_true_eq]
  exact Nat.add_comm _ _

theorem separatorCount_eq_zero_cons {depth : Int} {b : UInt8} {t : Text} :
    separatorCount depth (b :: t) = 0 ↔
      ¬ (b = 44 ∧ depth = 0) ∧ separatorCount (depthAfter depth b) t = 0 := by
  rw [separatorCount_cons, Nat.add_eq_zero_iff]
  simp

/-! ### The texts between them -/

def cutOutside (depth : Int) : Text → List Text
  | [] => [[]]
  | b :: rest =>
    if b = 44 ∧ depth = 0 then [] :: cutOutside depth rest
    else (cutOutside (depthAfter depth b) rest).modifyHead (b :: ·)

theorem cutOutside_ne_nil (depth : Int) (t : Text) : cutOutside depth t ≠ [] := by
  fun_induction cutOutside depth t with
  | case1 | case2 => exact List.cons_ne_nil _ _
  | case3 _ _ _ _ inductionHypothesis => simpa using inductionHypothesis

theorem splitOperandsFrom_eq (done : List Text) (current : Text) (depth : Int) (t : Text) :
    splitOperandsFrom done current depth t =
      done.reverse ++
        ((cutOutside depth t).modifyHead (current.reverse ++ ·)).map Text.trim := by
  fun_induction splitOperandsFrom done current depth t with
  | case1 done current => simp [cutOutside]
  | case2 done current depth b rest separates inductionHypothesis =>
      rw [inductionHypothesis, cutOutside, if_pos separates]
      have same : (cutOutside depth rest).modifyHead (([] : Text).reverse ++ ·) =
          cutOutside depth rest := by
        cases cutOutside depth rest <;> rfl
      rw [same]
      simp
  | case3 done current depth b rest separates inductionHypothesis =>
      rw [inductionHypothesis, cutOutside, if_neg separates, List.modifyHead_modifyHead]
      simp [Function.comp_def]

theorem splitOperands_eq {t : Text} (nonempty : t ≠ []) :
    splitOperands t = (cutOutside 0 t).map Text.trim := by
  rw [splitOperands, if_neg (by simpa using nonempty), splitOperandsFrom_eq]
  cases cutOutside 0 t <;> rfl

theorem length_cutOutside (depth : Int) (t : Text) :
    (cutOutside depth t).length = separatorCount depth t + 1 := by
  fun_induction cutOutside depth t with
  | case1 => rfl
  | case2 depth b rest separates inductionHypothesis =>
      obtain ⟨rfl, rfl⟩ := separates
      rw [separatorCount_cons, List.length_cons, inductionHypothesis]
      simp [depthAfter, Nat.add_comm]
  | case3 depth b rest separates inductionHypothesis =>
      rw [separatorCount_cons, List.length_modifyHead, inductionHypothesis, if_neg separates,
        Nat.zero_add]

theorem join_cons_cons (separator first next : Text) (rest : List Text) :
    Text.join separator (first :: next :: rest) =
      first ++ (separator ++ Text.join separator (next :: rest)) := by
  rw [Text.join_cons, Text.join_cons, List.flatMap_cons, List.append_assoc]

theorem join_modifyHead {pieces : List Text} (nonempty : pieces ≠ []) (separator : Text)
    (b : UInt8) :
    Text.join separator (pieces.modifyHead (b :: ·)) = b :: Text.join separator pieces := by
  obtain ⟨piece, rest, rfl⟩ := List.exists_cons_of_ne_nil nonempty
  rw [List.modifyHead_cons, Text.join_cons, Text.join_cons, List.cons_append]

/-- No byte is lost, and none but separating commas are between the pieces. -/
theorem join_cutOutside (depth : Int) (t : Text) : Text.join [44] (cutOutside depth t) = t := by
  fun_induction cutOutside depth t with
  | case1 => rfl
  | case2 depth b rest separates inductionHypothesis =>
      obtain ⟨next, others, cut⟩ := List.exists_cons_of_ne_nil (cutOutside_ne_nil depth rest)
      rw [cut] at inductionHypothesis ⊢
      rw [join_cons_cons, inductionHypothesis, separates.1]
      rfl
  | case3 depth b rest separates inductionHypothesis =>
      rw [join_modifyHead (cutOutside_ne_nil _ rest), inductionHypothesis]

/-- All brackets are closed between two pieces. -/
theorem bracketDepth_of_cutOutside {depth : Int} {t : Text} {front back : List Text}
    (before : front ≠ []) (after : back ≠ []) (cut : cutOutside depth t = front ++ back) :
    depth + bracketDepth (Text.join [44] front) = 0 := by
  induction t generalizing depth front with
  | nil =>
      obtain ⟨piece, front, rfl⟩ := List.exists_cons_of_ne_nil before
      rw [cutOutside, List.cons_append, List.cons.injEq, List.nil_eq_append_iff] at cut
      exact absurd cut.2.2 after
  | cons b rest inductionHypothesis =>
      obtain ⟨piece, front, rfl⟩ := List.exists_cons_of_ne_nil before
      rw [cutOutside] at cut
      split at cut
      · rename_i separates
        obtain ⟨-, rfl⟩ := separates
        rw [List.cons_append, List.cons.injEq] at cut
        obtain ⟨rfl, cut⟩ := cut
        cases front with
        | nil => rfl
        | cons next others =>
            have later := inductionHypothesis (List.cons_ne_nil next others) cut
            rw [join_cons_cons, List.nil_append, List.singleton_append, bracketDepth_cons]
            simpa [depthAfter] using later
      · obtain ⟨first, others, pieces⟩ :=
          List.exists_cons_of_ne_nil (cutOutside_ne_nil (depthAfter depth b) rest)
        rw [pieces, List.modifyHead_cons, List.cons_append, List.cons.injEq] at cut
        obtain ⟨rfl, rfl⟩ := cut
        have later := inductionHypothesis (List.cons_ne_nil first front) pieces
        rw [Text.join_cons, List.cons_append, ← Text.join_cons, bracketDepth_cons, ← Int.add_assoc,
          ← depthAfter_eq_add]
        exact later

/-! ### Operands that are written -/

/-- A text that can be an operand: there is no white space around it, it closes as many brackets as
it opens, and its commas stand in brackets. -/
structure IsOperandText (t : Text) : Prop where
  nonempty : t ≠ []
  trimmed : Text.trim t = t
  balanced : bracketDepth t = 0
  unseparated : separatorCount 0 t = 0

theorem cutOutside_append {depth : Int} {front : Text}
    (unseparated : separatorCount depth front = 0) (rest : Text) :
    cutOutside depth (front ++ rest) =
      (cutOutside (depth + bracketDepth front) rest).modifyHead (front ++ ·) := by
  induction front generalizing depth with
  | nil =>
      have nothing : depth + bracketDepth [] = depth := Int.add_zero depth
      rw [nothing]
      cases cut : cutOutside depth rest <;> simp [cut]
  | cons b front inductionHypothesis =>
      rw [separatorCount_eq_zero_cons] at unseparated
      rw [List.cons_append, cutOutside, if_neg unseparated.1, inductionHypothesis unseparated.2,
        List.modifyHead_modifyHead, bracketDepth_cons, ← Int.add_assoc, ← depthAfter_eq_add]
      rfl

/-- Texts with commas between them are cut at these commas, unless they open brackets or have such
commas themselves. -/
theorem cutOutside_join {pieces : List Text} (nonempty : pieces ≠ [])
    (closed : ∀ piece ∈ pieces, bracketDepth piece = 0 ∧ separatorCount 0 piece = 0) :
    cutOutside 0 (Text.join [44] pieces) = pieces := by
  induction pieces with
  | nil => exact absurd rfl nonempty
  | cons piece rest inductionHypothesis =>
      rw [List.forall_mem_cons] at closed
      obtain ⟨⟨balanced, unseparated⟩, others⟩ := closed
      cases rest with
      | nil =>
          have read := cutOutside_append unseparated []
          rw [List.append_nil, balanced] at read
          simpa [Text.join_cons, cutOutside] using read
      | cons next rest =>
          rw [join_cons_cons, cutOutside_append unseparated, balanced, List.singleton_append,
            cutOutside, if_pos ⟨rfl, rfl⟩]
          have later := inductionHypothesis (List.cons_ne_nil next rest) others
          simp [later]

theorem join_comma_space (first : Text) (rest : List Text) :
    Text.join [44, 32] (first :: rest) = Text.join [44] (first :: rest.map (32 :: ·)) := by
  rw [Text.join_cons, Text.join_cons, List.flatMap_map]
  rfl

theorem splitOperands_join {operands : List Text} (written : ∀ o ∈ operands, IsOperandText o) :
    splitOperands (Text.join [44, 32] operands) = operands := by
  cases operands with
  | nil => rfl
  | cons first rest =>
      rw [List.forall_mem_cons] at written
      obtain ⟨isOperand, others⟩ := written
      have nonempty : Text.join [44, 32] (first :: rest) ≠ [] := by
        rw [Text.join_cons]
        exact List.append_ne_nil_of_left_ne_nil isOperand.nonempty _
      rw [splitOperands_eq nonempty, join_comma_space, cutOutside_join (List.cons_ne_nil _ _),
        List.map_cons, isOperand.trimmed, List.map_map]
      · congr 1
        refine (List.map_congr_left fun o member => ?_).trans (List.map_id rest)
        exact (Text.trim_space o).trans (others o member).trimmed
      · rw [List.forall_mem_cons, List.forall_mem_map]
        refine ⟨⟨isOperand.balanced, isOperand.unseparated⟩, fun o member => ?_⟩
        rw [bracketDepth_cons, separatorCount_cons]
        simpa [depthAfter] using
          And.intro (others o member).balanced (others o member).unseparated

/-! ### Instructions that are written -/

theorem join_ne_nil {operands : List Text} (nonempty : operands ≠ [])
    (written : ∀ o ∈ operands, IsOperandText o) : Text.join [44, 32] operands ≠ [] := by
  obtain ⟨first, rest, rfl⟩ := List.exists_cons_of_ne_nil nonempty
  rw [Text.join_cons]
  exact List.append_ne_nil_of_left_ne_nil (written first List.mem_cons_self).nonempty _

theorem trimEnd_join {operands : List Text} (written : ∀ o ∈ operands, IsOperandText o) :
    Text.trimEnd (Text.join [44, 32] operands) = Text.join [44, 32] operands := by
  induction operands with
  | nil => rfl
  | cons first rest inductionHypothesis =>
      rw [List.forall_mem_cons] at written
      cases rest with
      | nil =>
          rw [Text.join_cons, List.flatMap_nil, List.append_nil]
          exact (Text.trimStart_and_trimEnd_of_trim written.1.trimmed).2
      | cons next rest =>
          have later := Text.trimEnd_append_space (join_ne_nil (List.cons_ne_nil _ _) written.2)
            (inductionHypothesis written.2) (first ++ [44])
          rw [join_cons_cons]
          simpa using later

theorem trimStart_join {operands : List Text} (written : ∀ o ∈ operands, IsOperandText o) :
    Text.trimStart (Text.join [44, 32] operands) = Text.join [44, 32] operands := by
  cases operands with
  | nil => rfl
  | cons first rest =>
      have isOperand := written first List.mem_cons_self
      have starts := (Text.trimStart_and_trimEnd_of_trim isOperand.trimmed).1
      cases rest with
      | nil =>
          rw [Text.join_cons, List.flatMap_nil, List.append_nil]
          exact starts
      | cons next rest =>
          have comma : Text.isSolid 44 = true := by decide
          rw [join_cons_cons, List.cons_append, Text.trimStart_append comma, starts]

theorem trim_join {operands : List Text} (written : ∀ o ∈ operands, IsOperandText o) :
    Text.trim (Text.join [44, 32] operands) = Text.join [44, 32] operands := by
  rw [Text.trim, trimStart_join written, trimEnd_join written]

section

variable {mnemonic : Text} (identifier : Text.isIdentifier mnemonic = true)

include identifier

theorem splitWord_append {rest : Text} (separate : ∀ b ∈ rest.head?, b = 32) :
    splitWord (mnemonic ++ rest) = (mnemonic, rest) := by
  have inWord : ∀ b ∈ mnemonic, splitWord.isInWord b = true := by
    intro b member
    have named := Text.isNameByte_of_isIdentifier identifier b member
    grind [splitWord.isInWord, Text.isNameByte, Text.isIdentifier.isStart,
      Text.isIdentifier.isLater]
  rw [splitWord, List.takeWhile_append_of_pos inWord, List.dropWhile_append_of_pos inWord]
  cases rest with
  | nil => simp
  | cons b rest =>
      rw [separate b rfl]
      simp [splitWord.isInWord]

theorem instructionContent_append {rest : Text} (separate : ∀ b ∈ rest.head?, b = 32) :
    instructionContent (mnemonic ++ rest) =
      .instruction mnemonic (splitOperands (Text.trim rest)) := by
  rw [instructionContent, splitWord_append identifier separate]
  simp [identifier]

/-- Whatever colons are in the operands, the text in front of them has a space in it. -/
theorem labelName?_append {rest : Text} (separate : ∀ b ∈ rest.head?, b = 32) :
    labelName? (mnemonic ++ rest) = none := by
  have named := Text.isNameByte_of_isIdentifier identifier
  have noColon : 58 ∉ mnemonic := Text.not_mem_of_isNameByte named (by decide)
  by_cases colon : 58 ∈ rest
  · obtain ⟨front, back, rfl, first⟩ := List.eq_append_cons_of_mem colon
    cases front with
    | nil => exact absurd (separate 58 rfl) (by decide)
    | cons b front =>
        obtain rfl := separate b rfl
        have absent : 58 ∉ mnemonic ++ 32 :: front := fun member =>
          (List.mem_append.mp member).elim noColon first
        have spaced : Text.isIdentifier (mnemonic ++ 32 :: front) = false := by
          rw [Bool.eq_false_iff]
          intro other
          exact Text.not_mem_of_isNameByte (Text.isNameByte_of_isIdentifier other)
            (b := 32) (by decide) (by simp)
        rw [labelName?, ← List.append_assoc, Text.cut_append absent]
        simp [spaced]
  · rw [labelName?, Text.cut_eq_none (by simp [noColon, colon])]

theorem parseTrimmed_append {rest : Text} (separate : ∀ b ∈ rest.head?, b = 32) :
    parseTrimmed (mnemonic ++ rest) =
      ⟨mnemonic ++ rest, .instruction mnemonic (splitOperands (Text.trim rest))⟩ := by
  have noLabel := labelName?_append identifier separate
  have content := instructionContent_append identifier separate
  obtain ⟨first, later, rfl⟩ :=
    List.exists_cons_of_ne_nil (Text.ne_nil_of_isIdentifier identifier)
  rw [List.cons_append] at noLabel content ⊢
  unfold parseTrimmed
  split
  · cases ‹_›
  · rename_i written
    cases written
    cases identifier
  · rw [noLabel, content]

theorem parse_instruction {operands : List Text} (written : ∀ o ∈ operands, IsOperandText o) :
    (parse (mnemonic ++ 32 :: Text.join [44, 32] operands)).content =
      .instruction mnemonic operands := by
  have solid := Text.isSolid_of_isIdentifier identifier
  have nonempty := Text.ne_nil_of_isIdentifier identifier
  have starts (rest : Text) : Text.trimStart (mnemonic ++ rest) = mnemonic ++ rest := by
    apply Text.trimStart_eq_self
    intro b first
    rw [List.head?_append_of_ne_nil _ nonempty] at first
    exact solid b (List.mem_of_mem_head? first)
  by_cases empty : operands = []
  · subst empty
    have ends : Text.trimEnd (mnemonic ++ [32]) = mnemonic := by
      obtain ⟨front, last, rfl⟩ := (List.eq_nil_or_concat mnemonic).resolve_left nonempty
      rw [List.concat_eq_append] at solid ⊢
      rw [List.append_assoc, List.singleton_append, Text.trimEnd_append (solid last (by simp))]
      rfl
    have alone : parseTrimmed (mnemonic ++ []) = ⟨mnemonic ++ [], .instruction mnemonic []⟩ :=
      parseTrimmed_append identifier nofun
    rw [List.append_nil] at alone
    rw [parse, Text.trim, starts, show Text.join [44, 32] [] = [] from rfl, ends, alone]
  · have ends := Text.trimEnd_append_space (join_ne_nil empty written) (trimEnd_join written)
      mnemonic
    rw [parse, Text.trim, starts, ends, parseTrimmed_append identifier (by simp), Text.trim_space,
      trim_join written, splitOperands_join written]

end

/-! ### All texts -/

/-- The text of an operand with white space around it. -/
def IsPadded (operand padded : Text) : Prop :=
  operand = Text.trim padded ∧
    ∃ front back, Text.IsBlank front ∧ Text.IsBlank back ∧ padded = front ++ (operand ++ back)

/-- A mnemonic and operands that are written with commas between them are read back.  Any text at
all has one operand more than commas outside brackets, unless it is empty: it is the operands with
these commas between them, and with white space around them. -/
theorem instructions_are_read_in_parts :
    (∀ (mnemonic : Text) (operands : List Text), Text.isIdentifier mnemonic = true →
      (∀ o ∈ operands, IsOperandText o) →
      (parse (mnemonic ++ 32 :: Text.join [44, 32] operands)).content =
        .instruction mnemonic operands) ∧
    splitOperands [] = [] ∧
    ∀ t : Text, t ≠ [] →
      (splitOperands t).length = separatorCount 0 t + 1 ∧
      ∃ pieces, List.Forall₂ IsPadded (splitOperands t) pieces ∧ t = Text.join [44] pieces ∧
        ∀ front back, front ≠ [] → back ≠ [] → pieces = front ++ back →
          bracketDepth (Text.join [44] front) = 0 := by
  refine ⟨fun _ _ identifier => parse_instruction identifier, rfl, fun t nonempty => ?_⟩
  refine ⟨?_, cutOutside 0 t, ?_, ?_, ?_⟩
  · rw [splitOperands_eq nonempty, List.length_map, length_cutOutside]
  · rw [splitOperands_eq nonempty, List.forall₂_map_left_iff, List.forall₂_same]
    exact fun piece _ => ⟨rfl, Text.exists_gaps_of_trim piece⟩
  · exact (join_cutOutside 0 t).symm
  · intro front back before after cut
    have closed := bracketDepth_of_cutOutside before after cut
    rwa [Int.zero_add] at closed

/-- Colons, and commas in brackets, are parts of the operands. -/
theorem instructions_are_read_in_parts_sample :
    (parse (ascii "mov [a:b,.c], x.y: z")).content =
        .instruction (ascii "mov") [ascii "[a:b,.c]", ascii "x.y: z"] ∧
      separatorCount 0 (ascii "[a, b] ,]\tc,d") = 1 ∧
      ∃ pieces, List.Forall₂ IsPadded [ascii "[a, b]", ascii "]\tc,d"] pieces ∧
        ascii "[a, b] ,]\tc,d" = Text.join [44] pieces := by
  obtain ⟨written, -, read⟩ := instructions_are_read_in_parts
  have operands : ∀ o ∈ [ascii "[a:b,.c]", ascii "x.y: z"], IsOperandText o := by
    rw [List.forall_mem_cons, List.forall_mem_singleton]
    constructor <;> exact ⟨by decide, by decide, by decide, by decide⟩
  obtain ⟨-, pieces, padded, joined, -⟩ := read (ascii "[a, b] ,]\tc,d") (by decide)
  exact ⟨written (ascii "mov") _ (by decide) operands, by decide, pieces, padded, joined⟩

end Asm64.Statement
