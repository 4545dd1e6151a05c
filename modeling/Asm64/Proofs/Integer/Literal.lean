import Asm64.Proofs.Integer
import Asm64.Proofs.Integer.Numeral

/-!
# Integer literals

A literal is an optional minus sign, the mark of a radix and a numeral in it.  Every such text with
a magnitude below 2^64 is read as the number that it stands for, and no other text is read at all.
So what is printed is read back.
-/

namespace Asm64.Integer

/-- The ways to write a magnitude. -/
inductive Radix where
  | octal
  | hexadecimal
  | binary
  | decimal
deriving DecidableEq, Repr

namespace Radix

def base : Radix → Nat
  | octal => 8
  | hexadecimal => 16
  | binary => 2
  | decimal => 10

/-- What stands in front of the digits. -/
def mark : Radix → Text
  | octal => ascii "0o"
  | hexadecimal => ascii "0x"
  | binary => ascii "0b"
  | decimal => []

theorem base_le (radix : Radix) : radix.base ≤ 16 := by cases radix <;> decide

end Radix

/-- Whether a text is a literal of the given sign and magnitude. -/
def Spells (negative : Bool) (n : Nat) (t : Text) : Prop :=
  ∃ (radix : Radix) (digits : Text), IsNumeral radix.base digits n ∧
    t = (if negative then [45] else []) ++ radix.mark ++ digits

theorem splitBase_of_decimal {n : Nat} {digits : Text} (numeral : IsNumeral 10 digits n) :
    splitBase digits = (10, digits) := by
  obtain ⟨-, values, all, -⟩ := numeral
  have decimal (b : UInt8) (member : b ∈ digits) : b.toNat ≤ 57 := by
    obtain ⟨value, digit⟩ := exists_of_forall₂ all member
    exact (isDigit_ten digit le_rfl).2
  unfold splitBase
  split
  · exact absurd (decimal 111 (by simp)) (by decide)
  · exact absurd (decimal 120 (by simp)) (by decide)
  · exact absurd (decimal 98 (by simp)) (by decide)
  · rfl

theorem splitBase_mark {radix : Radix} {n : Nat} {digits : Text}
    (numeral : IsNumeral radix.base digits n) :
    splitBase (radix.mark ++ digits) = (radix.base, digits) := by
  cases radix with
  | octal | hexadecimal | binary => rfl
  | decimal => exact splitBase_of_decimal numeral

theorem exists_radix (t : Text) :
    ∃ radix : Radix, splitBase t = (radix.base, (splitBase t).2) ∧
      t = radix.mark ++ (splitBase t).2 := by
  unfold splitBase
  split
  · exact ⟨.octal, rfl, rfl⟩
  · exact ⟨.hexadecimal, rfl, rfl⟩
  · exact ⟨.binary, rfl, rfl⟩
  · exact ⟨.decimal, rfl, rfl⟩

theorem readMagnitude?_eq_some_iff {t : Text} {m : UInt64} :
    readMagnitude? t = some m ↔ Spells false m.toNat t := by
  have bounded (n : Nat) : (if n < Nat.pow 2 64 then some (UInt64.ofNat n) else none) = some m ↔
      n = m.toNat := by
    constructor
    · intro read
      split at read
      · rename_i below
        cases read
        exact (UInt64.toNat_ofNat_of_lt' below).symm
      · cases read
    · rintro rfl
      rw [if_pos m.toNat_lt, UInt64.ofNat_toNat]
  have reading : readMagnitude? t = some m ↔
      readNumeral? (splitBase t).1 (splitBase t).2 = some m.toNat := by
    unfold readMagnitude?
    cases readNumeral? (splitBase t).1 (splitBase t).2 with
    | none => simp
    | some n => rw [bounded, Option.some.injEq]
  rw [reading]
  constructor
  · intro read
    obtain ⟨radix, split, spelled⟩ := exists_radix t
    rw [split, readNumeral?_eq_some_iff radix.base_le] at read
    exact ⟨radix, _, read, spelled⟩
  · rintro ⟨radix, digits, numeral, rfl⟩
    rw [if_neg Bool.false_ne_true, List.nil_append, splitBase_mark numeral,
      readNumeral?_eq_some_iff radix.base_le]
    exact numeral

theorem isNameByte_of_spells {n : Nat} {t : Text} (spells : Spells false n t) :
    ∀ b ∈ t, Text.isNameByte b = true := by
  obtain ⟨radix, digits, numeral, rfl⟩ := spells
  have mark : ∀ b ∈ radix.mark, Text.isNameByte b = true :=
    List.all_eq_true.mp (by cases radix <;> decide)
  intro b member
  rw [if_neg Bool.false_ne_true, List.nil_append, List.mem_append] at member
  rcases member with inMark | inDigits
  · exact mark b inMark
  · exact isNameByte_of_isNumeral radix.base_le numeral b inDigits

theorem ne_nil_of_spells {negative : Bool} {n : Nat} {t : Text} (spells : Spells negative n t) :
    t ≠ [] := by
  obtain ⟨_, digits, numeral, rfl⟩ := spells
  exact List.append_ne_nil_of_right_ne_nil _ numeral.1

theorem spells_minus_iff {n : Nat} {t : Text} : Spells true n (45 :: t) ↔ Spells false n t := by
  simp [Spells]

theorem spells_true_iff {n : Nat} {t : Text} :
    Spells true n t ↔ ∃ rest, t = 45 :: rest ∧ Spells false n rest := by
  constructor
  · rintro ⟨radix, digits, numeral, rfl⟩
    exact ⟨radix.mark ++ digits, by simp, radix, digits, numeral, by simp⟩
  · rintro ⟨rest, rfl, spells⟩
    exact spells_minus_iff.mpr spells

theorem parse?_of_unsigned {t : Text} (named : ∀ b ∈ t, Text.isNameByte b = true) :
    parse? t = (readMagnitude? t).map fun m => ⟨false, m⟩ := by
  unfold parse?
  split
  · exact absurd (named 45 List.mem_cons_self) (by decide)
  · rfl

theorem parse?_eq_some_iff {t : Text} {i : Integer} :
    parse? t = some i ↔
      ∃ negative, Spells negative i.magnitude.toNat t ∧
        (i.negative = true ↔ negative = true ∧ i.magnitude.toNat ≠ 0) := by
  have zero (m : UInt64) : (m != 0) = true ↔ m.toNat ≠ 0 := by
    rw [bne_iff_ne, ne_eq, ne_eq, ← UInt64.toNat_inj, UInt64.toNat_zero]
  constructor
  · intro parsed
    unfold parse? at parsed
    split at parsed
    · obtain ⟨m, read, rfl⟩ := Option.map_eq_some_iff.mp parsed
      exact ⟨true, spells_minus_iff.mpr (readMagnitude?_eq_some_iff.mp read), by simp [zero]⟩
    · obtain ⟨m, read, rfl⟩ := Option.map_eq_some_iff.mp parsed
      exact ⟨false, readMagnitude?_eq_some_iff.mp read, by simp⟩
  · rintro ⟨negative, spells, sign⟩
    obtain ⟨isNegative, magnitude⟩ := i
    dsimp only at spells sign
    cases negative with
    | true =>
        obtain ⟨rest, rfl, unsigned⟩ := spells_true_iff.mp spells
        rw [parse?, readMagnitude?_eq_some_iff.mpr unsigned, Option.map_some,
          Option.some.injEq, Integer.mk.injEq, Bool.eq_iff_iff, zero, sign]
        simp
    | false =>
        rw [parse?_of_unsigned (isNameByte_of_spells spells),
          readMagnitude?_eq_some_iff.mpr spells, Option.map_some, Option.some.injEq,
          Integer.mk.injEq, Bool.eq_iff_iff, sign]
        simp

theorem exists_head_of_spells {negative : Bool} {n : Nat} {t : Text}
    (spells : Spells negative n t) :
    ∃ first rest, t = first :: rest ∧ Text.isIdentifier.isStart first = false := by
  have decimalDigit (b : UInt8) (value : Nat) (digit : IsDigit 10 b value) :
      Text.isIdentifier.isStart b = false := by
    obtain ⟨low, high⟩ := isDigit_ten digit le_rfl
    simp only [Text.isIdentifier.isStart, decide_eq_false_iff_not, UInt8.le_iff_toNat_le,
      ← UInt8.toNat_inj, UInt8.reduceToNat]
    omega
  obtain ⟨radix, digits, numeral, rfl⟩ := spells
  cases negative with
  | true => exact ⟨45, radix.mark ++ digits, rfl, by decide⟩
  | false =>
      cases radix with
      | octal | hexadecimal | binary => exact ⟨48, _, rfl, by decide⟩
      | decimal =>
          obtain ⟨nonempty, values, all, -⟩ := numeral
          obtain ⟨first, rest, rfl⟩ := List.exists_cons_of_ne_nil nonempty
          obtain ⟨value, digit⟩ := exists_of_forall₂ all List.mem_cons_self
          exact ⟨first, rest, rfl, decimalDigit first value digit⟩

theorem parse?_of_isIdentifier {name : Text} (identifier : Text.isIdentifier name = true) :
    parse? name = none := by
  rw [Option.eq_none_iff_forall_ne_some]
  intro i parsed
  obtain ⟨_, spells, -⟩ := parse?_eq_some_iff.mp parsed
  obtain ⟨first, rest, rfl, other⟩ := exists_head_of_spells spells
  rw [Text.isIdentifier, other, Bool.false_and] at identifier
  cases identifier

theorem spells_decimal (n : Nat) : Spells false n (Text.decimal n) :=
  ⟨.decimal, Text.decimal n, isNumeral_decimal n, rfl⟩

theorem spells_render (i : Integer) : Spells i.negative i.magnitude.toNat i.render := by
  unfold render
  split
  · rename_i negative
    rw [negative]
    exact spells_minus_iff.mpr (spells_decimal _)
  · rename_i nonnegative
    rw [Bool.eq_false_iff.mpr nonnegative]
    exact spells_decimal _

/-- Every literal but minus zero is read back as it is. -/
theorem parse?_render {i : Integer} (normal : i.negative = true → i.magnitude.toNat ≠ 0) :
    parse? i.render = some i :=
  parse?_eq_some_iff.mpr ⟨i.negative, spells_render i, fun negative => ⟨negative, normal negative⟩,
    And.left⟩

theorem parse?_render_of_parse? {t : Text} {i : Integer} (parsed : parse? t = some i) :
    parse? i.render = some i := by
  obtain ⟨_, -, sign⟩ := parse?_eq_some_iff.mp parsed
  exact parse?_render fun negative => (sign.mp negative).2

/-! ### Signed 64-bit values -/

section

variable {z : Int} (low : -2 ^ 63 ≤ z) (high : z < 2 ^ 63)

include low high

theorem toNat_magnitude_ofInt : (ofInt z).magnitude.toNat = z.natAbs :=
  UInt64.toNat_ofNat_of_lt' (by norm_num; omega)

theorem render_ofInt : (ofInt z).render = Text.decimalInt z := by
  rw [render, Text.decimalInt, toNat_magnitude_ofInt low high]
  simp only [ofInt, decide_eq_true_eq]
  split
  · rfl
  · rename_i nonnegative
    rw [show z.natAbs = z.toNat by omega]

theorem parse?_decimalInt : parse? (Text.decimalInt z) = some (ofInt z) := by
  rw [← render_ofInt low high]
  apply parse?_render
  intro negative
  have below : z < 0 := of_decide_eq_true negative
  rw [toNat_magnitude_ofInt low high]
  omega

theorem toInt?_ofInt : (ofInt z).toInt? = some z :=
  toInt?_eq_some_iff.mpr ⟨value_ofInt low high, low, high⟩

end

theorem range_of_toInt? {i : Integer} {z : Int} (signed : i.toInt? = some z) :
    -2 ^ 63 ≤ z ∧ z < 2 ^ 63 :=
  (toInt?_eq_some_iff.mp signed).2

/-- A text is read exactly if it spells a literal whose magnitude is below 2^64, and it is read as
what it spells, where minus zero is zero.  What has been read, and every signed 64-bit value, is
read back after it has been printed; such a value is printed in decimal. -/
theorem literals_are_read_exactly :
    (∀ (t : Text) (i : Integer), parse? t = some i ↔
      ∃ negative n, Spells negative n t ∧ n < 2 ^ 64 ∧ i.magnitude.toNat = n ∧
        (i.negative = true ↔ negative = true ∧ n ≠ 0)) ∧
    (∀ (t : Text) (i : Integer), parse? t = some i → parse? i.render = some i) ∧
    ∀ v : Int64, (ofInt v.toInt).render = ascii (toString v.toInt) ∧
      parse? (ofInt v.toInt).render = some (ofInt v.toInt) ∧
      (ofInt v.toInt).toInt? = some v.toInt := by
  refine ⟨fun t i => ?_, fun t i => parse?_render_of_parse?, fun v => ?_⟩
  · rw [parse?_eq_some_iff]
    constructor
    · rintro ⟨negative, spells, sign⟩
      exact ⟨negative, _, spells, i.magnitude.toNat_lt, rfl, sign⟩
    · rintro ⟨negative, _, spells, -, rfl, sign⟩
      exact ⟨negative, spells, sign⟩
  · have low := v.le_toInt
    have high := v.toInt_lt
    rw [render_ofInt low high]
    exact ⟨decimalInt_eq _, parse?_decimalInt low high, toInt?_ofInt low high⟩

/-- The largest magnitude below zero, in hexadecimal digits of both cases, and the least signed
value, whose negation is no signed value. -/
theorem literals_are_read_exactly_sample :
    parse? (ascii "-0xffFFffffFFFFffff") = some ⟨true, 0xFFFFFFFFFFFFFFFF⟩ ∧
      parse? (render ⟨true, 0xFFFFFFFFFFFFFFFF⟩) = some ⟨true, 0xFFFFFFFFFFFFFFFF⟩ ∧
      (ofInt Int64.minValue.toInt).render = ascii "-9223372036854775808" ∧
      (ofInt Int64.minValue.toInt).toInt? = some (-9223372036854775808) := by
  have parsed : parse? (ascii "-0xffFFffffFFFFffff") = some ⟨true, 0xFFFFFFFFFFFFFFFF⟩ := by
    decide
  obtain ⟨-, printed, values⟩ := literals_are_read_exactly
  obtain ⟨rendered, -, value⟩ := values Int64.minValue
  exact ⟨parsed, printed _ _ parsed, rendered, value⟩

example : parse? (ascii "18446744073709551616") = none := by decide

example : parse? (ascii "-0b0") = some ⟨false, 0⟩ := by decide

end Asm64.Integer
