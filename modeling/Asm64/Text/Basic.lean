/-!
# Byte texts

Source files, operand texts, file names and messages are sequences of bytes. They are usually
UTF-8, but nothing here requires it: a text is cut and joined byte by byte, and only quoting
and display look at characters.
-/

namespace Asm64

abbrev Text := List UInt8

/-- The bytes of a text written with ASCII characters only. -/
def ascii (s : String) : Text :=
  s.toList.map fun c => UInt8.ofNat c.toNat

namespace Text

def digit (n : Nat) : UInt8 :=
  if n < 10 then UInt8.ofNat (48 + n) else UInt8.ofNat (87 + n)

/-- The positional numeral of `n`, without leading zeros. -/
def numeral (base n : Nat) : Text :=
  if base ≤ 1 ∨ n < base then [digit n]
  else numeral base (n / base) ++ [digit (n % base)]
termination_by n
decreasing_by exact Nat.div_lt_self (by omega) (by omega)

def decimal (n : Nat) : Text := numeral 10 n

def decimalInt (z : Int) : Text :=
  if z < 0 then 45 :: decimal z.natAbs else decimal z.toNat

def padStart (width : Nat) (filler : UInt8) (t : Text) : Text :=
  List.replicate (width - t.length) filler ++ t

def padEnd (width : Nat) (filler : UInt8) (t : Text) : Text :=
  t ++ List.replicate (width - t.length) filler

/-- At least `width` lower case hexadecimal digits. -/
def hex (width n : Nat) : Text := padStart width 48 (numeral 16 n)

def binary (width n : Nat) : Text := padStart width 48 (numeral 2 n)

def hexByte (b : UInt8) : Text := [digit (b.toNat / 16), digit (b.toNat % 16)]

/-- The upper case form of an ASCII letter; other bytes are kept. -/
def upperByte (b : UInt8) : UInt8 :=
  if 97 ≤ b ∧ b ≤ 122 then b - 32 else b

/-- Bytes as pairs of hexadecimal digits, with a space between pairs. -/
def hexBytes (bytes : List UInt8) : Text := [32].intercalate (bytes.map hexByte)

def join (separator : Text) (parts : List Text) : Text := separator.intercalate parts

def cut (separator : UInt8) (t : Text) : Option (Text × Text) :=
  match t.dropWhile (· != separator) with
  | [] => none
  | _ :: after => some (t.takeWhile (· != separator), after)

theorem length_lt_of_cut {separator : UInt8} {t before after : Text}
    (h : cut separator t = some (before, after)) : after.length < t.length := by
  unfold cut at h
  split at h
  · simp at h
  · rename_i first rest heq
    simp only [Option.some.injEq, Prod.mk.injEq] at h
    obtain ⟨-, rfl⟩ := h
    have sublist := (List.dropWhile_sublist (l := t) (· != separator)).length_le
    rw [heq] at sublist
    exact sublist

def cutLast (separator : UInt8) (t : Text) : Option (Text × Text) :=
  (cut separator t.reverse).map fun (after, before) => (before.reverse, after.reverse)

/-- The pieces between separators. There is one piece more than there are separators. -/
def split (separator : UInt8) (t : Text) : List Text :=
  t.foldr
    (fun b pieces =>
      if b = separator then [] :: pieces
      else match pieces with
        | [] => [[b]]
        | piece :: rest => (b :: piece) :: rest)
    [[]]

def startsWith (start t : Text) : Bool := start.isPrefixOf t

/-- The rest of a text after a given start. -/
def dropStart? (start t : Text) : Option Text :=
  if start.isPrefixOf t then some (t.drop start.length) else none

/-- A name that a label or mnemonic may have: an ASCII letter or underscore, then letters,
digits, underscores and dots. -/
def isIdentifier : Text → Bool
  | [] => false
  | first :: rest => isStart first && rest.all fun b => isStart b || isLater b
where
  isStart (b : UInt8) : Bool := b = 95 ∨ (97 ≤ b ∧ b ≤ 122) ∨ (65 ≤ b ∧ b ≤ 90)
  isLater (b : UInt8) : Bool := b = 46 ∨ (48 ≤ b ∧ b ≤ 57)

end Text

end Asm64
