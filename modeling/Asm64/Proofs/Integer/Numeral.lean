import Mathlib.Data.Nat.Digits.Defs
import Mathlib.Tactic
import Asm64.Integer
import Asm64.Proofs.Success
import Asm64.Proofs.Text.Blank

/-!
# Numerals

A numeral is a non-empty run of digits, the most significant first.  It is read as the number that
it stands for by position, and the numeral that a number is printed as stands for that number.
-/

namespace Asm64.Integer

/-! ### Digits -/

def IsDigit (base : Nat) (b : UInt8) (value : Nat) : Prop :=
  value < base ∧
    ((ascii "0123456789abcdef")[value]? = some b ∨ (ascii "0123456789ABCDEF")[value]? = some b)

theorem isDigit_iff {base value : Nat} {b : UInt8} (small : base ≤ 16) :
    IsDigit base b value ↔ digitValue? b = some value ∧ value < base := by
  rw [IsDigit, and_comm, and_congr_left_iff]
  intro below
  have bound : value < 16 := below.trans_le small
  unfold digitValue?
  simp only [UInt8.le_iff_toNat_le]
  interval_cases value <;> simp [ascii, ← UInt8.toNat_inj] <;> split_ifs <;> simp <;> omega

theorem isDigit_digit {base value : Nat} (small : base ≤ 16) (below : value < base) :
    IsDigit base (Text.digit value) value := by
  refine ⟨below, .inl ?_⟩
  have bound : value < 16 := below.trans_le small
  interval_cases value <;> rfl

theorem isNameByte_of_isDigit {base value : Nat} {b : UInt8} (small : base ≤ 16)
    (digit : IsDigit base b value) : Text.isNameByte b = true := by
  obtain ⟨below, spelled⟩ := digit
  have bound : value < 16 := below.trans_le small
  interval_cases value <;> simp [ascii] at spelled <;> rcases spelled with rfl | rfl <;> rfl

theorem isDigit_ten {base value : Nat} {b : UInt8} (digit : IsDigit base b value)
    (decimal : base ≤ 10) : 48 ≤ b.toNat ∧ b.toNat ≤ 57 := by
  obtain ⟨below, spelled⟩ := digit
  have bound : value < 10 := below.trans_le decimal
  interval_cases value <;> simp [ascii] at spelled <;> subst spelled <;> decide

/-! ### Runs of digits -/

/-- Whether a run of digits stands for a number by position. -/
def IsNumeral (base : Nat) (digits : Text) (n : Nat) : Prop :=
  digits ≠ [] ∧
    ∃ values, List.Forall₂ (IsDigit base) digits values ∧ Nat.ofDigits base values.reverse = n

def addDigit? (base n : Nat) (b : UInt8) : Option Nat :=
  match digitValue? b with
  | some d => if d < base then some (n * base + d) else none
  | none => none

theorem addDigit?_eq_some_iff {base n m : Nat} {b : UInt8} (small : base ≤ 16) :
    addDigit? base n b = some m ↔ ∃ value, IsDigit base b value ∧ n * base + value = m := by
  simp only [isDigit_iff small, addDigit?]
  cases digitValue? b <;> simp [and_assoc]

theorem ofDigits_reverse_cons (base n value : Nat) (values : List Nat) :
    n * base ^ (values.length + 1) + Nat.ofDigits base (value :: values).reverse =
      (n * base + value) * base ^ values.length + Nat.ofDigits base values.reverse := by
  rw [List.reverse_cons, Nat.ofDigits_append, Nat.ofDigits_singleton, List.length_reverse]
  ring

theorem foldlM_addDigit?_eq_some_iff {base n m : Nat} {digits : Text} (small : base ≤ 16) :
    digits.foldlM (addDigit? base) n = some m ↔
      ∃ values, List.Forall₂ (IsDigit base) digits values ∧
        n * base ^ digits.length + Nat.ofDigits base values.reverse = m := by
  induction digits generalizing n with
  | nil => simp
  | cons b digits inductionHypothesis =>
      simp only [List.foldlM_cons, Option.bind_eq_bind, Option.bind_eq_some_iff,
        addDigit?_eq_some_iff small, inductionHypothesis, List.forall₂_cons_left_iff]
      constructor
      · rintro ⟨_, ⟨value, digit, rfl⟩, values, rest, rfl⟩
        refine ⟨value :: values, ⟨value, values, digit, rest, rfl⟩, ?_⟩
        rw [List.length_cons, rest.length_eq, ofDigits_reverse_cons]
      · rintro ⟨_, ⟨value, values, digit, rest, rfl⟩, rfl⟩
        refine ⟨_, ⟨value, digit, rfl⟩, values, rest, ?_⟩
        rw [List.length_cons, rest.length_eq, ofDigits_reverse_cons]

theorem readNumeral?_eq_some_iff {base n : Nat} {digits : Text} (small : base ≤ 16) :
    readNumeral? base digits = some n ↔ IsNumeral base digits n := by
  have reading : readNumeral? base digits =
      if digits.isEmpty then none else digits.foldlM (addDigit? base) 0 := rfl
  rw [reading, IsNumeral]
  cases digits with
  | nil => simp
  | cons b digits =>
      rw [List.isEmpty_cons, if_neg Bool.false_ne_true, foldlM_addDigit?_eq_some_iff small]
      simp

theorem isNameByte_of_isNumeral {base n : Nat} {digits : Text} (small : base ≤ 16)
    (numeral : IsNumeral base digits n) : ∀ b ∈ digits, Text.isNameByte b = true := by
  obtain ⟨-, values, all, -⟩ := numeral
  intro b member
  obtain ⟨value, digit⟩ := exists_of_forall₂ all member
  exact isNameByte_of_isDigit small digit

/-! ### Numerals that are printed -/

theorem IsNumeral.single {base value : Nat} {b : UInt8} (digit : IsDigit base b value) :
    IsNumeral base [b] value :=
  ⟨List.cons_ne_nil _ _, [value], .cons digit .nil, Nat.ofDigits_singleton⟩

theorem IsNumeral.concat {base n value : Nat} {digits : Text} {b : UInt8}
    (front : IsNumeral base digits n) (digit : IsDigit base b value) :
    IsNumeral base (digits ++ [b]) (n * base + value) := by
  obtain ⟨-, values, all, rfl⟩ := front
  refine ⟨by simp, values ++ [value], List.rel_append all (.cons digit .nil), ?_⟩
  rw [List.reverse_append, List.reverse_singleton, List.singleton_append, Nat.ofDigits_cons]
  ring

theorem isNumeral_numeral {base : Nat} (large : 2 ≤ base) (small : base ≤ 16) (n : Nat) :
    IsNumeral base (Text.numeral base n) n := by
  induction n using Nat.strongRecOn with
  | ind n inductionHypothesis =>
      rw [Text.numeral]
      split
      · rename_i last
        exact .single (isDigit_digit small (by omega))
      · rename_i more
        have smaller : n / base < n := Nat.div_lt_self (by omega) (by omega)
        have last := isDigit_digit small (Nat.mod_lt n (by omega : 0 < base))
        have whole := (inductionHypothesis _ smaller).concat last
        rwa [Nat.div_add_mod'] at whole

theorem decimal_eq (n : Nat) : Text.decimal n = ascii (toString n) := by
  have single {n : Nat} (last : n < 10) : [Text.digit n] = (Nat.toDigits 10 n).map fun c =>
      UInt8.ofNat c.toNat := by
    interval_cases n <;> rfl
  have spelled (n : Nat) : ascii (toString n) = (Nat.toDigits 10 n).map fun c =>
      UInt8.ofNat c.toNat := by
    rw [ascii, show toString n = n.repr from rfl, Nat.repr_eq_ofList_toDigits,
      String.toList_ofList]
  rw [spelled]
  induction n using Nat.strongRecOn with
  | ind n inductionHypothesis =>
      rw [Text.decimal, Text.numeral]
      split
      · exact single (by omega)
      · rename_i more
        have smaller : n / 10 < n := Nat.div_lt_self (by omega) (by omega)
        have last : n % 10 < 10 := Nat.mod_lt n (by omega)
        rw [← Text.decimal, inductionHypothesis _ smaller, single last, ← List.map_append,
          Nat.toDigits_append_toDigits (by omega) (by omega) last, Nat.div_add_mod]

theorem decimalInt_eq (z : Int) : Text.decimalInt z = ascii (toString z) := by
  cases z with
  | ofNat n => exact decimal_eq n
  | negSucc n =>
      have minus : ascii (toString (Int.negSucc n)) = 45 :: ascii (toString (n + 1)) := by
        rw [show toString (Int.negSucc n) = "-" ++ toString (n + 1) from rfl, ascii,
          String.toList_append, List.map_append]
        rfl
      rw [minus, ← decimal_eq, Text.decimalInt, if_pos (Int.negSucc_lt_zero n),
        Int.natAbs_negSucc]

theorem isNumeral_decimal (n : Nat) : IsNumeral 10 (Text.decimal n) n :=
  isNumeral_numeral (by omega) (by omega) n

end Asm64.Integer
