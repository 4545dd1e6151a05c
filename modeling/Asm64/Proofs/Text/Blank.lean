import Mathlib.Tactic
import Asm64.Proofs.Text.Cutting
import Asm64.Text.Blank

/-!
# Bytes that are in no white space

An ASCII byte that is no blank is part of no white space character.  What is trimmed on one side of
it does not depend on the other side, and a run of such bytes is one word.
-/

namespace Asm64.Text

/-- Whether a byte is part of no white space, wherever it stands. -/
def isSolid (b : UInt8) : Bool := b < 0x80 ∧ b ≠ 32 ∧ ¬ (9 ≤ b ∧ b ≤ 13)

theorem blankLength_le_length (t : Text) : blankLength t ≤ t.length := by
  fun_cases blankLength t <;> simp

section

variable {stop : UInt8} (solid : isSolid stop = true)

include solid

/-! ### White space in front of a solid byte -/

theorem blankLength_cons (rest : Text) : blankLength (stop :: rest) = 0 := by
  match rest with
  | [] => grind [isSolid, blankLength]
  | [b] => grind [isSolid, blankLength]
  | b :: c :: rest => grind [isSolid, blankLength, blankLength.isWideBlank]

theorem blankLength_append (first : UInt8) (front rest : Text) :
    blankLength (first :: front ++ stop :: rest) = blankLength (first :: front) := by
  match front with
  | [] => grind [isSolid, blankLength, blankLength.isWideBlank]
  | [b] => grind [isSolid, blankLength, blankLength.isWideBlank]
  | b :: c :: front => grind [blankLength]

theorem blankLength_append_le (front rest : Text) :
    blankLength (front ++ stop :: rest) ≤ front.length := by
  cases front with
  | nil => exact (blankLength_cons solid rest).le
  | cons first front =>
      rw [blankLength_append solid]
      exact blankLength_le_length _

/-- Bytes that end with white space do so whatever comes before a solid byte in front of them. -/
theorem blankLength_take_append_iff (reversed rest : Text) {count : Nat} (positive : 0 < count) :
    blankLength ((reversed ++ stop :: rest).take count).reverse = count ↔
      blankLength (reversed.take count).reverse = count := by
  by_cases within : count ≤ reversed.length
  · rw [List.take_append_of_le_length within]
  · have long : blankLength (reversed.take count).reverse ≤ reversed.length :=
      (blankLength_le_length _).trans (by simp)
    obtain ⟨more, rfl⟩ : ∃ more, count = reversed.length + (more + 1) :=
      ⟨count - reversed.length - 1, by omega⟩
    have short := blankLength_append_le solid (rest.take more).reverse reversed.reverse
    rw [List.take_length_add_append, List.take_succ_cons, List.reverse_append,
      List.reverse_cons, List.append_assoc, List.singleton_append]
    simp only [List.length_reverse, List.length_take] at short
    constructor <;> intro blank <;> omega

theorem blankLengthAtEnd_append (reversed rest : Text) :
    blankLengthAtEnd (reversed ++ stop :: rest) = blankLengthAtEnd reversed := by
  have single (t : Text) : t.take 1 = (t.take 1).reverse := by cases t <;> rfl
  unfold blankLengthAtEnd
  rw [single, single reversed]
  simp only [blankLength_take_append_iff solid reversed rest (Nat.succ_pos _)]

end

/-! ### Trimming -/

/-- What is dropped in front of a byte that ends every measure does not depend on what follows. -/
theorem dropMeasured_append {measure : Text → Nat} {stop : UInt8} {rest : Text}
    (ends : measure (stop :: rest) = 0)
    (same : ∀ first front, measure (first :: front ++ stop :: rest) = measure (first :: front))
    (short : ∀ t, measure t ≤ t.length) (front : Text) {skip : Nat} (before : skip ≤ front.length) :
    dropMeasured measure skip (front ++ stop :: rest) =
      dropMeasured measure skip front ++ stop :: rest := by
  induction front generalizing skip with
  | nil =>
      obtain rfl : skip = 0 := Nat.le_zero.mp before
      simp [dropMeasured, ends]
  | cons first front inductionHypothesis =>
      cases skip with
      | succ skip => exact inductionHypothesis (Nat.le_of_succ_le_succ before)
      | zero =>
          have bound := short (first :: front)
          have measured := same first front
          rw [List.cons_append] at measured ⊢
          rw [dropMeasured, dropMeasured, measured]
          cases more : measure (first :: front) with
          | zero => rfl
          | succ more =>
              rw [more, List.length_cons] at bound
              exact inductionHypothesis (Nat.le_of_succ_le_succ bound)

theorem blankLengthAtEnd_le_length (reversed : Text) :
    blankLengthAtEnd reversed ≤ reversed.length := by
  have reached (count : Nat) (blank : blankLength (reversed.take count).reverse = count) :
      count ≤ reversed.length := by
    have bound := blankLength_le_length (reversed.take count).reverse
    rw [blank, List.length_reverse, List.length_take] at bound
    exact bound.trans (Nat.min_le_right _ _)
  fun_cases blankLengthAtEnd reversed with
  | case1 blank =>
      cases reversed with
      | nil => simp [blankLength] at blank
      | cons => simp
  | case2 _ blank => exact reached 2 blank
  | case3 _ _ blank => exact reached 3 blank
  | case4 => exact Nat.zero_le _

section

variable {stop : UInt8} (solid : isSolid stop = true) (front back : Text)

include solid

theorem trimStart_append : trimStart (front ++ stop :: back) = trimStart front ++ stop :: back :=
  dropMeasured_append (blankLength_cons solid back)
    (fun first front => blankLength_append solid first front back) blankLength_le_length front
    (Nat.zero_le _)

theorem trimEnd_append : trimEnd (front ++ stop :: back) = front ++ stop :: trimEnd back := by
  have kept : dropMeasured blankLengthAtEnd 0 (back.reverse ++ stop :: front.reverse) =
      dropMeasured blankLengthAtEnd 0 back.reverse ++ stop :: front.reverse :=
    dropMeasured_append (blankLengthAtEnd_append solid [] front.reverse)
      (fun first rest => blankLengthAtEnd_append solid (first :: rest) front.reverse)
      blankLengthAtEnd_le_length back.reverse (Nat.zero_le _)
  rw [trimEnd, trimEnd, List.reverse_append, List.reverse_cons, List.append_assoc,
    List.singleton_append, kept]
  simp

theorem trim_append :
    trim (front ++ stop :: back) = trimStart front ++ stop :: trimEnd back := by
  rw [trim, trimStart_append solid, trimEnd_append solid]

end

theorem dropMeasured_isSuffix {measure : Text → Nat} {skip : Nat} (t : Text) :
    dropMeasured measure skip t <:+ t := by
  fun_induction dropMeasured measure skip t with
  | case1 | case3 => exact List.suffix_rfl
  | case2 _ _ _ inductionHypothesis | case4 _ _ _ _ inductionHypothesis =>
      exact inductionHypothesis.trans (List.suffix_cons _ _)

theorem not_mem_trimStart {b : UInt8} {t : Text} (absent : b ∉ t) : b ∉ trimStart t :=
  fun member => absent ((dropMeasured_isSuffix t).subset member)

theorem not_mem_trimEnd {b : UInt8} {t : Text} (absent : b ∉ t) : b ∉ trimEnd t := by
  intro member
  rw [trimEnd, List.mem_reverse] at member
  exact absent (List.mem_reverse.mp ((dropMeasured_isSuffix _).subset member))

theorem trim_space (t : Text) : trim (32 :: t) = trim t := rfl

theorem trimStart_eq_self {t : Text} (starts : ∀ b ∈ t.head?, isSolid b = true) :
    trimStart t = t := by
  cases t with
  | nil => rfl
  | cons first rest => exact trimStart_append (starts first rfl) [] rest

theorem trimEnd_eq_self {t : Text} (ends : ∀ b ∈ t.getLast?, isSolid b = true) :
    trimEnd t = t := by
  rcases List.eq_nil_or_concat t with rfl | ⟨front, last, rfl⟩
  · rfl
  · rw [List.concat_eq_append] at ends ⊢
    exact trimEnd_append (ends last (by simp)) front []

theorem trimEnd_append_eq_self (front : Text) {back : Text} (nonempty : back ≠ [])
    (solid : ∀ b ∈ back, isSolid b = true) : trimEnd (front ++ back) = front ++ back := by
  apply trimEnd_eq_self
  intro b last
  rw [List.getLast?_append_of_ne_nil front nonempty] at last
  exact solid b (List.mem_of_mem_getLast? last)

theorem trim_eq_self {t : Text} (starts : ∀ b ∈ t.head?, isSolid b = true)
    (ends : ∀ b ∈ t.getLast?, isSolid b = true) : trim t = t := by
  rw [trim, trimStart_eq_self starts, trimEnd_eq_self ends]

theorem trimStart_of_solid {t : Text} (solid : ∀ b ∈ t, isSolid b = true) : trimStart t = t :=
  trimStart_eq_self fun b first => solid b (List.mem_of_mem_head? first)

theorem trim_of_solid {t : Text} (solid : ∀ b ∈ t, isSolid b = true) : trim t = t :=
  trim_eq_self (fun b first => solid b (List.mem_of_mem_head? first))
    (fun b last => solid b (List.mem_of_mem_getLast? last))

/-! ### Words -/

theorem fieldsFrom_append {word : Text} (solid : ∀ b ∈ word, isSolid b = true)
    (done : List Text) (current rest : Text) :
    fieldsFrom done current 0 (word ++ rest) =
      fieldsFrom done (word.reverse ++ current) 0 rest := by
  induction word generalizing current with
  | nil => rfl
  | cons b word inductionHypothesis =>
      rw [List.forall_mem_cons] at solid
      rw [List.cons_append, fieldsFrom, blankLength_cons solid.1]
      simpa using inductionHypothesis solid.2 (b :: current)

theorem fieldsFrom_join {words : List Text}
    (solid : ∀ word ∈ words, word ≠ [] ∧ ∀ b ∈ word, isSolid b = true) (done : List Text) :
    fieldsFrom done [] 0 (join [32] words) = done.reverse ++ words := by
  induction words generalizing done with
  | nil => simp [join, fieldsFrom, fieldsFrom.finish]
  | cons word rest inductionHypothesis =>
      rw [List.forall_mem_cons] at solid
      obtain ⟨⟨nonempty, solidWord⟩, solidRest⟩ := solid
      cases rest with
      | nil =>
          have last := fieldsFrom_append solidWord done [] []
          simpa [join, fieldsFrom, fieldsFrom.finish, nonempty] using last
      | cons next rest =>
          have separated : join [32] (word :: next :: rest) =
              word ++ 32 :: join [32] (next :: rest) := by
            simp [join, List.intercalate_cons_cons]
          have space (current t : Text) : fieldsFrom done current 0 (32 :: t) =
              fieldsFrom (fieldsFrom.finish done current) [] 0 t := rfl
          rw [separated, fieldsFrom_append solidWord, space]
          simpa [fieldsFrom.finish, nonempty] using inductionHypothesis solidRest (word :: done)

theorem fields_join {words : List Text}
    (solid : ∀ word ∈ words, word ≠ [] ∧ ∀ b ∈ word, isSolid b = true) :
    fields (join [32] words) = words :=
  fieldsFrom_join solid []

theorem trim_join {words : List Text}
    (solid : ∀ word ∈ words, word ≠ [] ∧ ∀ b ∈ word, isSolid b = true) :
    trim (join [32] words) = join [32] words := by
  cases words with
  | nil => rfl
  | cons first rest =>
      rw [List.forall_mem_cons] at solid
      obtain ⟨⟨nonempty, solidFirst⟩, solidRest⟩ := solid
      have starts : trimStart (join [32] (first :: rest)) = join [32] (first :: rest) := by
        apply trimStart_eq_self
        intro b head
        rw [join_cons, List.head?_append_of_ne_nil _ nonempty] at head
        exact solidFirst b (List.mem_of_mem_head? head)
      rw [trim, starts, join_cons]
      rcases List.eq_nil_or_concat rest with rfl | ⟨front, last, rfl⟩
      · simpa using trimEnd_append_eq_self [] nonempty solidFirst
      · obtain ⟨nonemptyLast, solidLast⟩ := solidRest last (by simp)
        have ends := trimEnd_append_eq_self
          (first ++ front.flatMap ([32] ++ ·) ++ [32]) nonemptyLast solidLast
        simpa using ends

/-! ### Names -/

/-- The bytes that names and numerals are made of. -/
def isNameByte (b : UInt8) : Bool := isIdentifier.isStart b || isIdentifier.isLater b

theorem isSolid_of_isNameByte {b : UInt8} (inName : isNameByte b = true) : isSolid b = true := by
  grind [isSolid, isNameByte, isIdentifier.isStart, isIdentifier.isLater]

theorem ne_nil_of_isIdentifier {name : Text} (identifier : isIdentifier name = true) :
    name ≠ [] := by
  rintro rfl
  cases identifier

theorem isNameByte_of_isIdentifier {name : Text} (identifier : isIdentifier name = true) :
    ∀ b ∈ name, isNameByte b = true := by
  cases name with
  | nil => exact List.forall_mem_nil _
  | cons first rest =>
      simp only [isIdentifier, Bool.and_eq_true, List.all_eq_true] at identifier
      refine List.forall_mem_cons.mpr ⟨?_, identifier.2⟩
      rw [isNameByte, identifier.1, Bool.true_or]

theorem not_mem_of_isNameByte {t : Text} (named : ∀ b ∈ t, isNameByte b = true) {b : UInt8}
    (other : isNameByte b = false) : b ∉ t := by
  intro member
  rw [named b member] at other
  cases other

theorem isSolid_of_isIdentifier {name : Text} (identifier : isIdentifier name = true) :
    ∀ b ∈ name, isSolid b = true :=
  fun b member => isSolid_of_isNameByte (isNameByte_of_isIdentifier identifier b member)

end Asm64.Text
