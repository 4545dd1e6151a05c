import Asm64.Word

/-!
# Integer literals

An integer literal is a sign and a 64-bit magnitude, so that it covers both the signed and the
unsigned 64-bit range. It is written in decimal, or in octal, hexadecimal or binary after
`0o`, `0x` or `0b`, with an optional minus sign in front.
-/

namespace Asm64

structure Integer where
  negative : Bool
  magnitude : UInt64
deriving DecidableEq, Repr

namespace Integer

/-- The value of a digit: a decimal digit, or a letter of either case from ten on. -/
def digitValue? (b : UInt8) : Option Nat :=
  if 48 ≤ b ∧ b ≤ 57 then some (b.toNat - 48)
  else if 97 ≤ b ∧ b ≤ 122 then some (b.toNat - 87)
  else if 65 ≤ b ∧ b ≤ 90 then some (b.toNat - 55)
  else none

def readNumeral? (base : Nat) (digits : Text) : Option Nat :=
  if digits.isEmpty then none
  else digits.foldlM (fun n b =>
    match digitValue? b with
    | some d => if d < base then some (n * base + d) else none
    | none => none) 0

def splitBase (t : Text) : Nat × Text :=
  match t with
  | 48 :: 111 :: digits => (8, digits)
  | 48 :: 120 :: digits => (16, digits)
  | 48 :: 98 :: digits => (2, digits)
  | digits => (10, digits)

def readMagnitude? (t : Text) : Option UInt64 :=
  match readNumeral? (splitBase t).1 (splitBase t).2 with
  | some n => if n < Nat.pow 2 64 then some (UInt64.ofNat n) else none
  | none => none

/-- Reads a literal. Minus zero is zero. -/
def parse? : Text → Option Integer
  | 45 :: rest => (readMagnitude? rest).map fun m => ⟨m != 0, m⟩
  | t => (readMagnitude? t).map fun m => ⟨false, m⟩

def ofInt (z : Int) : Integer := ⟨decide (z < 0), UInt64.ofNat z.natAbs⟩

def value (i : Integer) : Int :=
  if i.negative then -(i.magnitude.toNat : Int) else i.magnitude.toNat

/-- The 64-bit two's complement form. Values out of range wrap. -/
def toUInt64 (i : Integer) : UInt64 :=
  if i.negative then -i.magnitude else i.magnitude

/-- The magnitude of the least value in the signed range of the width. Other magnitudes in the
range are smaller. -/
def signedLimit (w : Width) : UInt64 := 1 <<< UInt64.ofNat (w.bits - 1)

def fitsSigned (i : Integer) (w : Width) : Bool :=
  if i.negative then i.magnitude ≤ signedLimit w else i.magnitude < signedLimit w

/-- Whether the value lies in the signed or the unsigned range of the width. Every magnitude lies
in the unsigned 64-bit range, whose end is no 64-bit number. -/
def fits (i : Integer) (w : Width) : Bool :=
  if i.negative then i.magnitude ≤ signedLimit w
  else 64 ≤ w.bits || i.magnitude < 1 <<< UInt64.ofNat w.bits

def toInt? (i : Integer) : Option Int :=
  if i.fitsSigned .qword then some i.toUInt64.toInt64.toInt else none

def render (i : Integer) : Text :=
  if i.negative then 45 :: Text.decimal i.magnitude.toNat
  else Text.decimal i.magnitude.toNat

end Integer

end Asm64
