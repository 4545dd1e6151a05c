import Asm64.CodeBlock
import Asm64.Proofs.Word

/-!
# How much memory is mapped

A block has whole pages.  Their number is computed with signed 64-bit numbers, so it is right unless
the size that is asked for is less than a page below the end of these numbers.  Then the sum wraps,
and a single page is mapped.
-/

namespace Asm64.CodeBlock

section

variable {pageSize : Nat} {n : Int}

/-! ### Rounding -/

theorem pages_bounds (positive : 0 < pageSize) (m : Int) :
    m / pageSize * pageSize ≤ m ∧ m < m / pageSize * pageSize + pageSize := by
  have isPositive : (0 : Int) < pageSize := Int.natCast_pos.mpr positive
  have above := Int.lt_ediv_add_one_mul_self m isPositive
  rw [Int.add_mul, Int.one_mul] at above
  exact ⟨Int.ediv_mul_le m isPositive.ne', above⟩

theorem mappedSize_eq (positive : 0 < pageSize) (nonnegative : 0 ≤ n)
    (fits : n + pageSize ≤ 2 ^ 63) :
    mappedSize pageSize n = max (pageSize : Int) ((n + pageSize - 1) / pageSize * pageSize) := by
  obtain ⟨below, above⟩ := pages_bounds positive (n + pageSize - 1)
  have sum : wrap64 (n + pageSize - 1) = n + pageSize - 1 := wrap64_eq_self (by omega) (by omega)
  rw [mappedSize, sum, Int.tdiv_eq_ediv_of_nonneg (by omega),
    wrap64_eq_self (by omega) (by omega)]

/-- A sum that wraps is negative, and is rounded to a number that is not positive. -/
theorem mappedSize_of_overflow (positive : 0 < pageSize) (isPage : pageSize ≤ 2 ^ 62)
    (isNumber : n < 2 ^ 63) (overflows : 2 ^ 63 < n + pageSize) :
    mappedSize pageSize n = pageSize := by
  have wrapped : wrap64 (n + pageSize - 1) = -(2 ^ 64 - (n + pageSize - 1)) := by
    calc wrap64 (n + pageSize - 1) = wrap64 (n + pageSize - 1 - (2 ^ 64 : Nat)) := by
          rw [wrap64, wrap64, Nat.pow_eq, Int.sub_bmod_right]
      _ = n + pageSize - 1 - (2 ^ 64 : Nat) := wrap64_eq_self (by omega) (by omega)
      _ = -(2 ^ 64 - (n + pageSize - 1)) := by omega
  obtain ⟨below, above⟩ := pages_bounds positive (2 ^ 64 - (n + pageSize - 1))
  rw [mappedSize, wrapped, Int.neg_tdiv, Int.tdiv_eq_ediv_of_nonneg (by omega), Int.neg_mul,
    wrap64_eq_self (by omega) (by omega), max_eq_left (by omega)]

/-- A size that is rounded up without overflow. -/
structure RoundsUp (pageSize : Nat) (n size : Int) : Prop where
  positive : 0 < size
  pages : (pageSize : Int) ∣ size
  enough : n ≤ size
  close : if n = 0 then size = pageSize else size < n + pageSize

theorem roundsUp_mappedSize (positive : 0 < pageSize) (nonnegative : 0 ≤ n)
    (fits : n + pageSize ≤ 2 ^ 63) : RoundsUp pageSize n (mappedSize pageSize n) := by
  obtain ⟨below, above⟩ := pages_bounds positive (n + pageSize - 1)
  rw [mappedSize_eq positive nonnegative fits]
  by_cases empty : n = 0
  · have single : max (pageSize : Int) ((n + pageSize - 1) / pageSize * pageSize) = pageSize :=
      max_eq_left (by omega)
    rw [single]
    exact ⟨by omega, dvd_rfl, by omega, by simp [empty]⟩
  · have atLeastOne : 1 ≤ (n + pageSize - 1) / pageSize :=
      Int.le_ediv_of_mul_le (by omega) (by omega)
    have rounded : max (pageSize : Int) ((n + pageSize - 1) / pageSize * pageSize) =
        (n + pageSize - 1) / pageSize * pageSize := max_eq_right (by nlinarith)
    rw [rounded]
    exact ⟨by omega, dvd_mul_left _ _, by omega, by simp only [empty, if_false]; omega⟩

/-! ### Room in the block -/

theorem write_empty (bytes : List UInt8) (capacity : Nat) :
    ∃ outcome, (mapped [] capacity false).write bytes = .ok outcome ∧
      outcome.count = min capacity bytes.length ∧
      outcome.error = if capacity < bytes.length then some .capacity else none := by
  refine ⟨_, rfl, List.length_take, ?_⟩
  simp

theorem allocateIn_eq (nonnegative : 0 ≤ n) :
    allocateIn pageSize n = .ok (mapped [] (mappedSize pageSize n).toNat false) :=
  if_neg (by omega)

/-- A block for `n` bytes takes as many, in the least number of whole pages, if rounding up to
these stays in the signed 64-bit numbers.  Otherwise a single page is mapped, which is too small:
it does not take `n` bytes. -/
theorem blocks_hold_what_they_are_mapped_for (positive : 0 < pageSize)
    (isPage : pageSize ≤ 2 ^ 62) (nonnegative : 0 ≤ n) (isNumber : n < 2 ^ 63) :
    (n + pageSize ≤ 2 ^ 63 →
      RoundsUp pageSize n (mappedSize pageSize n) ∧
      ∃ block, allocateIn pageSize n = .ok block ∧ (block.capacity : Int) = mappedSize pageSize n ∧
        n ≤ block.capacity ∧ ∀ bytes : List UInt8, bytes.length = n →
          ∃ outcome, block.write bytes = .ok outcome ∧ outcome.count = n ∧
            outcome.error = none) ∧
    (2 ^ 63 < n + pageSize →
      mappedSize pageSize n = pageSize ∧ mappedSize pageSize n < n ∧
      ∃ block, allocateIn pageSize n = .ok block ∧ block.capacity = pageSize ∧
        ∀ bytes : List UInt8, bytes.length = n →
          ∃ outcome, block.write bytes = .ok outcome ∧ outcome.error = some .capacity) := by
  constructor
  · intro fits
    have rounds := roundsUp_mappedSize positive nonnegative fits
    have enough := rounds.enough
    have capacity : ((mappedSize pageSize n).toNat : Int) = mappedSize pageSize n :=
      Int.toNat_of_nonneg rounds.positive.le
    refine ⟨rounds, _, allocateIn_eq nonnegative, capacity, by rw [CodeBlock.capacity]; omega, ?_⟩
    intro bytes length
    obtain ⟨outcome, written, count, error⟩ := write_empty bytes (mappedSize pageSize n).toNat
    exact ⟨outcome, written, by omega, by rw [error, if_neg (by omega)]⟩
  · intro overflows
    have size := mappedSize_of_overflow positive isPage isNumber overflows
    have capacity : (mappedSize pageSize n).toNat = pageSize := by omega
    refine ⟨size, by omega, _, allocateIn_eq nonnegative, capacity, ?_⟩
    intro bytes length
    obtain ⟨outcome, written, -, error⟩ := write_empty bytes (mappedSize pageSize n).toNat
    exact ⟨outcome, written, by rw [error, if_pos (by omega)]⟩

end

/-- Nine bytes need three pages of four bytes. -/
theorem blocks_hold_what_they_are_mapped_for_sample :
    mappedSize 4 9 = 12 ∧
      ∃ block, allocateIn 4 9 = .ok block ∧ 9 ≤ block.capacity ∧
        ∃ outcome, block.write (List.replicate 9 0x90) = .ok outcome ∧ outcome.error = none := by
  have size : mappedSize 4 9 = 12 := by decide
  obtain ⟨-, block, allocated, -, enough, takes⟩ :=
    (@blocks_hold_what_they_are_mapped_for 4 9 (by decide) (by decide) (by decide)
      (by decide)).1 (by decide)
  obtain ⟨outcome, written, -, error⟩ := takes (List.replicate 9 0x90) (by decide)
  exact ⟨size, block, allocated, by omega, outcome, written, error⟩

/-- A block for the largest number of bytes is a single page. -/
theorem mapping_wraps :
    mappedSize pageSize (2 ^ 63 - 1) = 4096 ∧ mappedSize pageSize (2 ^ 63 - 1) < 2 ^ 63 - 1 ∧
      ∃ block, allocate (2 ^ 63 - 1) = .ok block ∧ block.capacity = 4096 ∧
        ∀ bytes : List UInt8, bytes.length = 2 ^ 63 - 1 →
          ∃ outcome, block.write bytes = .ok outcome ∧ outcome.error = some .capacity := by
  have size : mappedSize pageSize (2 ^ 63 - 1) = 4096 := by decide
  have allocated : allocate (2 ^ 63 - 1) = .ok (mapped [] 4096 false) := by decide
  refine ⟨size, by decide, _, allocated, rfl, ?_⟩
  intro bytes length
  obtain ⟨outcome, written, -, error⟩ := write_empty bytes 4096
  exact ⟨outcome, written, by rw [error, if_pos (by omega)]⟩

end Asm64.CodeBlock
