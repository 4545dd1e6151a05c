import Asm64.Text.Basic

/-!
# Characters of a text

A text is read as UTF-8. Bytes that belong to no character are kept one by one as stray bytes,
so every text has a reading. Overlong forms, surrogates and code points above U+10FFFF are not
characters.
-/

namespace Asm64.Text

inductive Symbol where
  | scalar (code : Nat)
  | stray (byte : UInt8)
deriving DecidableEq, Repr

/-- The least and greatest second byte after the first byte of a character of three or four
bytes. -/
def secondByteRange (first : UInt8) : UInt8 × UInt8 :=
  if first = 0xE0 then (0xA0, 0xBF)
  else if first = 0xED then (0x80, 0x9F)
  else if first = 0xF0 then (0x90, 0xBF)
  else if first = 0xF4 then (0x80, 0x8F)
  else (0x80, 0xBF)

def isTail (b : UInt8) : Bool := 0x80 ≤ b ∧ b ≤ 0xBF

/-- The code point that a text starts with, and the number of bytes it takes. -/
def scalarAt : Text → Option (Nat × Nat)
  | [] => none
  | a :: rest =>
    if a < 0x80 then some (a.toNat, 1)
    else if 0xC2 ≤ a ∧ a ≤ 0xDF then
      match rest with
      | b :: _ => if isTail b then some ((a.toNat - 0xC0) * 64 + (b.toNat - 0x80), 2) else none
      | _ => none
    else if 0xE0 ≤ a ∧ a ≤ 0xEF then
      match rest with
      | b :: c :: _ =>
        if second a b ∧ isTail c then
          some ((a.toNat - 0xE0) * 4096 + (b.toNat - 0x80) * 64 + (c.toNat - 0x80), 3)
        else none
      | _ => none
    else if 0xF0 ≤ a ∧ a ≤ 0xF4 then
      match rest with
      | b :: c :: d :: _ =>
        if second a b ∧ isTail c ∧ isTail d then
          some ((a.toNat - 0xF0) * 262144 + (b.toNat - 0x80) * 4096 + (c.toNat - 0x80) * 64
            + (d.toNat - 0x80), 4)
        else none
      | _ => none
    else none
where
  second (a b : UInt8) : Bool := (secondByteRange a).1 ≤ b ∧ b ≤ (secondByteRange a).2

/-- The symbols of a text, after `skip` bytes. `seen` holds earlier symbols in reverse. -/
def symbolsFrom (seen : List Symbol) : (skip : Nat) → Text → List Symbol
  | _, [] => seen.reverse
  | skip + 1, _ :: rest => symbolsFrom seen skip rest
  | 0, b :: rest =>
    match scalarAt (b :: rest) with
    | some (code, length) => symbolsFrom (.scalar code :: seen) (length - 1) rest
    | none => symbolsFrom (.stray b :: seen) 0 rest

def symbols (t : Text) : List Symbol := symbolsFrom [] 0 t

def encodeScalar (code : Nat) : Text :=
  if code < 0x80 then [UInt8.ofNat code]
  else if code < 0x800 then [UInt8.ofNat (0xC0 + code / 64), tail code]
  else if code < 0x10000 then
    [UInt8.ofNat (0xE0 + code / 4096), tail (code / 64), tail code]
  else
    [UInt8.ofNat (0xF0 + code / 262144), tail (code / 4096), tail (code / 64), tail code]
where
  tail (n : Nat) : UInt8 := UInt8.ofNat (0x80 + n % 64)

/-- The text as characters, with U+FFFD for each stray byte. -/
def display (t : Text) : String :=
  String.ofList ((symbols t).map fun
    | .scalar code => Char.ofNat code
    | .stray _ => Char.ofNat 0xFFFD)

def ofString (s : String) : Text := s.toUTF8.toList

end Asm64.Text
