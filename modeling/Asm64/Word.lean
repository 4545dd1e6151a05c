import Asm64.Text.Basic

/-!
# Widths and byte fields

Operands, immediates and data values are 8, 16, 32 or 64 bits wide. Numbers are stored in
fields of a fixed number of bytes, which keep the number modulo a power of 256.
-/

namespace Asm64

inductive Width where
  | byte
  | word
  | dword
  | qword
deriving DecidableEq, Repr

namespace Width

def bits : Width → Nat
  | byte => 8
  | word => 16
  | dword => 32
  | qword => 64

def bytes : Width → Nat
  | byte => 1
  | word => 2
  | dword => 4
  | qword => 8

def all : List Width := [byte, word, dword, qword]

/-- The letter that stands for the width in size suffixes and encoding clauses. -/
def letter : Width → UInt8
  | byte => 98
  | word => 119
  | dword => 100
  | qword => 113

def ofLetter? (b : UInt8) : Option Width := all.find? fun w => w.letter = b

theorem bits_eq (w : Width) : w.bits = 8 * w.bytes := by cases w <;> rfl

end Width

/-- The `count` low bytes of a number, least significant first. -/
def littleEndian : (count : Nat) → Nat → List UInt8
  | 0, _ => []
  | count + 1, n => UInt8.ofNat n :: littleEndian count (n / 256)

/-- The `count` low bytes of a number, most significant first. -/
def bigEndian (count n : Nat) : List UInt8 := (littleEndian count n).reverse

def ofLittleEndian : List UInt8 → Nat
  | [] => 0
  | b :: rest => b.toNat + 256 * ofLittleEndian rest

def ofBigEndian (bytes : List UInt8) : Nat := ofLittleEndian bytes.reverse

def twosComplement (z : Int) : Nat := (z % Int.pow 2 64).toNat

/-- The signed 64-bit integer that agrees with `z` modulo 2^64. Offsets are signed 64-bit
numbers, and their sums and differences wrap. -/
def wrap64 (z : Int) : Int := z.bmod (Nat.pow 2 64)

@[simp] theorem length_littleEndian (count n : Nat) : (littleEndian count n).length = count := by
  induction count generalizing n with
  | zero => rfl
  | succ count ih => simp [littleEndian, ih]

@[simp] theorem length_bigEndian (count n : Nat) : (bigEndian count n).length = count := by
  simp [bigEndian]

end Asm64
