import Asm64.Text.Utf8

/-!
# TOML values

A TOML text is a list of items: table headers and keys with their values. Numbers and dates are
checked when they are read, but what they are is of no interest to a configuration.
-/

namespace Asm64.Toml

/-- The parts of a dotted key. -/
abbrev Key := List Text

inductive Value where
  | text (value : Text)
  | boolean (value : Bool)
  /-- A number or a date. -/
  | quantity
  | array (elements : List Value)
  | table (pairs : List (Key × Value))

def Value.isArray : Value → Bool
  | array _ => true
  | _ => false

inductive Item where
  /-- A header `[key]`. -/
  | table (key : Key)
  /-- A header `[[key]]`. -/
  | arrayTable (key : Key)
  | pair (key : Key) (value : Value)

def isBareByte (b : UInt8) : Bool :=
  (97 ≤ b ∧ b ≤ 122) ∨ (65 ≤ b ∧ b ≤ 90) ∨ (48 ≤ b ∧ b ≤ 57) ∨ b = 95 ∨ b = 45

/-- How a byte is written between double quotes. -/
def quotedByte (b : UInt8) : Text :=
  match b with
  | 34 => ascii "\\\""
  | 92 => ascii "\\\\"
  | 8 => ascii "\\b"
  | 9 => ascii "\\t"
  | 10 => ascii "\\n"
  | 12 => ascii "\\f"
  | 13 => ascii "\\r"
  | _ => if b < 32 ∨ b = 127 then ascii "\\u" ++ Text.hex 4 b.toNat else [b]

/-- A part of a key, in quotes if it needs them. -/
def renderPart (part : Text) : Text :=
  if !part.isEmpty && part.all isBareByte then part
  else 34 :: part.flatMap quotedByte ++ [34]

def renderKey (key : Key) : Text := Text.join [46] (key.map renderPart)

end Asm64.Toml
