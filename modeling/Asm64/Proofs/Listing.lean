import Asm64.Listing
import Asm64.Proofs.Integer.Numeral
import Asm64.Proofs.Text.Blank
import Asm64.Proofs.Text.Cutting
import Asm64.Proofs.Text.Lines

/-!
# Rows of listings

Rows show bytes one behind the other, and only the first row of a statement shows its text.  Each
row is a line of its own, with the offset and the bytes in hexadecimal.
-/

namespace Asm64

/-! ### Hexadecimal numerals -/

namespace Integer

theorem IsNumeral.zero_cons {base n : Nat} {digits : Text} (positive : 0 < base) (small : base ≤ 16)
    (numeral : IsNumeral base digits n) : IsNumeral base (48 :: digits) n := by
  obtain ⟨-, values, all, rfl⟩ := numeral
  refine ⟨List.cons_ne_nil _ _, 0 :: values, .cons (isDigit_digit small positive) all, ?_⟩
  rw [List.reverse_cons, Nat.ofDigits_append]
  simp

theorem isNumeral_padStart {base n : Nat} {digits : Text} (positive : 0 < base)
    (small : base ≤ 16) (numeral : IsNumeral base digits n) (width : Nat) :
    IsNumeral base (Text.padStart width 48 digits) n := by
  unfold Text.padStart
  generalize width - digits.length = missing
  induction missing with
  | zero => exact numeral
  | succ missing inductionHypothesis => exact inductionHypothesis.zero_cons positive small

theorem isNumeral_hex (width n : Nat) : IsNumeral 16 (Text.hex width n) n :=
  isNumeral_padStart (by omega) le_rfl (isNumeral_numeral (by omega) le_rfl n) width

theorem isNumeral_hexByte (b : UInt8) : IsNumeral 16 (Text.hexByte b) b.toNat := by
  have bound := b.toNat_lt
  have high : IsDigit 16 (Text.digit (b.toNat / 16)) (b.toNat / 16) :=
    isDigit_digit le_rfl (by omega)
  have low : IsDigit 16 (Text.digit (b.toNat % 16)) (b.toNat % 16) :=
    isDigit_digit le_rfl (by omega)
  have both := (IsNumeral.single high).concat low
  rwa [Nat.mul_comm, Nat.div_add_mod] at both

end Integer

namespace Listing

/-! ### What rows show -/

/-- Rows that show bytes from an offset on, one behind the other, at least one byte a row and no
more than fit. -/
inductive Shows : Nat → List UInt8 → List Row → Prop
  | nil {offset : Nat} : Shows offset [] []
  | cons {offset : Nat} {bytes rest : List UInt8} {text : Text} {rows : List Row} :
      1 ≤ bytes.length → bytes.length ≤ 8 → Shows (offset + bytes.length) rest rows →
      Shows offset (bytes ++ rest) (⟨offset, bytes, text⟩ :: rows)

theorem Shows.append {offset : Nat} {bytes more : List UInt8} {rows others : List Row}
    (front : Shows offset bytes rows) (back : Shows (offset + bytes.length) more others) :
    Shows offset (bytes ++ more) (rows ++ others) := by
  induction front with
  | nil => exact back
  | cons positive short _ inductionHypothesis =>
      rw [List.length_append, ← Nat.add_assoc] at back
      rw [List.append_assoc]
      exact .cons positive short (inductionHypothesis back)

/-- The text of a statement stands in its first row and nowhere else. -/
def Titled (text : Text) : List Row → Prop
  | [] => True
  | first :: more => first.text = text ∧ ∀ row ∈ more, row.text = []

theorem rowsOf_nil (text : Text) (offset : Nat) : rowsOf text offset [] = [] := by
  rw [rowsOf]

theorem rowsOf_of_ne_nil (text : Text) (offset : Nat) {bytes : List UInt8}
    (nonempty : bytes ≠ []) :
    rowsOf text offset bytes = ⟨offset, bytes.take rowLength, text⟩ ::
      rowsOf [] (offset + rowLength) (bytes.drop rowLength) := by
  cases bytes with
  | nil => exact absurd rfl nonempty
  | cons b rest => rw [rowsOf]

theorem shows_rowsOf (text : Text) (offset : Nat) (bytes : List UInt8) :
    Shows offset bytes (rowsOf text offset bytes) := by
  fun_induction rowsOf text offset bytes with
  | case1 => exact .nil
  | case2 text offset b rest inductionHypothesis =>
      have taken : ((b :: rest).take rowLength).length = min 8 (b :: rest).length :=
        List.length_take
      rw [List.length_cons] at taken
      have shown : Shows (offset + ((b :: rest).take rowLength).length)
          ((b :: rest).drop rowLength)
          (rowsOf [] (offset + rowLength) ((b :: rest).drop rowLength)) := by
        by_cases last : (b :: rest).length ≤ rowLength
        · rw [List.drop_eq_nil_of_le last, rowsOf_nil]
          exact .nil
        · rw [List.length_take_of_le (Nat.le_of_not_le last)]
          exact inductionHypothesis
      have rows : Shows offset ((b :: rest).take rowLength ++ (b :: rest).drop rowLength)
          (⟨offset, (b :: rest).take rowLength, text⟩ ::
            rowsOf [] (offset + rowLength) ((b :: rest).drop rowLength)) :=
        .cons (by omega) (by omega) shown
      rwa [List.take_append_drop] at rows

theorem text_of_mem_rowsOf {text : Text} (offset : Nat) (bytes : List UInt8) (none : text = []) :
    ∀ row ∈ rowsOf text offset bytes, row.text = [] := by
  fun_induction rowsOf text offset bytes with
  | case1 => exact List.forall_mem_nil _
  | case2 text offset b rest inductionHypothesis =>
      exact List.forall_mem_cons.mpr ⟨none, inductionHypothesis rfl⟩

theorem titled_rowsOf (text : Text) (offset : Nat) (bytes : List UInt8) :
    Titled text (rowsOf text offset bytes) := by
  by_cases empty : bytes = []
  · rw [empty, rowsOf_nil]
    trivial
  · rw [rowsOf_of_ne_nil text offset empty]
    exact ⟨rfl, text_of_mem_rowsOf _ _ rfl⟩

/-! ### Rows as lines -/

/-- The bytes of a row: two hexadecimal digits each, with a space between them. -/
def IsColumn (column : Text) (bytes : List UInt8) : Prop :=
  ∃ pairs, column = Text.join [32] pairs ∧
    List.Forall₂ (fun pair b => pair.length = 2 ∧ Integer.IsNumeral 16 pair b.toNat) pairs bytes

theorem isColumn_hexBytes (bytes : List UInt8) : IsColumn (Text.hexBytes bytes) bytes := by
  refine ⟨bytes.map Text.hexByte, rfl, ?_⟩
  rw [List.forall₂_map_left_iff, List.forall₂_same]
  exact fun b _ => ⟨rfl, Integer.isNumeral_hexByte b⟩

/-- A line with the offset of a row, its bytes and, after a column that is wide enough for them,
its text. -/
def Row.Written (row : Row) (line : Text) : Prop :=
  ∃ offset column,
    Integer.IsNumeral 16 offset row.offset ∧ 4 ≤ offset.length ∧ IsColumn column row.bytes ∧
    line = offset ++ [32, 32] ++ column ++
      if row.text = [] then [] else List.replicate (23 - column.length) 32 ++ [32, 32] ++ row.text

theorem exists_line_of_render (row : Row) :
    ∃ line, row.render = line ++ [10] ∧ row.Written line := by
  have gap : ascii "  " = [32, 32] := rfl
  refine ⟨_, rfl, Text.hex 4 row.offset, Text.hexBytes row.bytes,
    Integer.isNumeral_hex 4 row.offset, ?_, isColumn_hexBytes row.bytes, ?_⟩
  · rw [Text.hex, Text.padStart, List.length_append, List.length_replicate]
    omega
  · by_cases empty : row.text = []
    · simp [empty, gap]
    · simp [empty, gap, Text.padEnd, rowLength]

theorem unbroken_of_written {line : Text} {row : Row} (written : row.Written line)
    (unbroken : 10 ∉ row.text) : 10 ∉ line := by
  obtain ⟨offset, column, numeral, -, ⟨pairs, rfl, all⟩, rfl⟩ := written
  have inOffset : 10 ∉ offset :=
    Text.not_mem_of_isNameByte (Integer.isNameByte_of_isNumeral le_rfl numeral) rfl
  have inColumn : 10 ∉ Text.join [32] pairs := by
    apply Text.not_mem_join (by decide)
    intro pair member
    obtain ⟨b, -, digits⟩ := exists_of_forall₂ all member
    exact Text.not_mem_of_isNameByte (Integer.isNameByte_of_isNumeral le_rfl digits) rfl
  split <;> simp [inOffset, inColumn, unbroken]

theorem exists_lines_of_render {rows : List Row} (unbroken : ∀ row ∈ rows, 10 ∉ row.text) :
    ∃ lines, Text.HasLines (rows.flatMap Row.render) lines ∧
      List.Forall₂ Row.Written rows lines := by
  induction rows with
  | nil => exact ⟨[], .none, .nil⟩
  | cons row rest inductionHypothesis =>
      rw [List.forall_mem_cons] at unbroken
      obtain ⟨lines, has, all⟩ := inductionHypothesis unbroken.2
      obtain ⟨line, rendered, written⟩ := exists_line_of_render row
      refine ⟨line :: lines, ?_, .cons written all⟩
      rw [List.flatMap_cons, rendered, List.append_assoc, List.singleton_append]
      exact .cons (unbroken_of_written written unbroken.1) has

end Listing

end Asm64
