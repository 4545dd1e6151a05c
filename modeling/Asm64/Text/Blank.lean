import Asm64.Text.Basic

/-!
# White space

White space is the Unicode property: the six ASCII blanks, U+0085, U+00A0, U+1680, U+2000 to
U+200A, U+2028, U+2029, U+202F, U+205F and U+3000, each in its UTF-8 form. No encoding of one
of them occurs inside the encoding of another character, so a text can be searched for them
byte by byte. A stray byte such as 0x85 alone is not white space.
-/

namespace Asm64.Text

/-- The number of bytes of the white space character that a text starts with, or zero. -/
def blankLength : Text → Nat
  | [] => 0
  | a :: rest =>
    if (9 ≤ a ∧ a ≤ 13) ∨ a = 32 then 1
    else if a = 0xC2 then
      match rest with
      | b :: _ => if b = 0x85 ∨ b = 0xA0 then 2 else 0
      | _ => 0
    else
      match rest with
      | b :: c :: _ => if isWideBlank a b c then 3 else 0
      | _ => 0
where
  isWideBlank (a b c : UInt8) : Bool :=
    (a = 0xE1 ∧ b = 0x9A ∧ c = 0x80) ∨
    (a = 0xE2 ∧ b = 0x80 ∧ ((0x80 ≤ c ∧ c ≤ 0x8A) ∨ c = 0xA8 ∨ c = 0xA9 ∨ c = 0xAF)) ∨
    (a = 0xE2 ∧ b = 0x81 ∧ c = 0x9F) ∨
    (a = 0xE3 ∧ b = 0x80 ∧ c = 0x80)

/-- The number of bytes of the white space character that a text ends with, or zero. The text
is given in reverse. -/
def blankLengthAtEnd (reversed : Text) : Nat :=
  if blankLength (reversed.take 1) = 1 then 1
  else if blankLength (reversed.take 2).reverse = 2 then 2
  else if blankLength (reversed.take 3).reverse = 3 then 3
  else 0

/-- Drops `skip` bytes, then characters for as long as `measure` finds one to drop. -/
def dropMeasured (measure : Text → Nat) : (skip : Nat) → Text → Text
  | _, [] => []
  | skip + 1, _ :: rest => dropMeasured measure skip rest
  | 0, b :: rest =>
    match measure (b :: rest) with
    | 0 => b :: rest
    | more + 1 => dropMeasured measure more rest

def trimStart (t : Text) : Text := dropMeasured blankLength 0 t

def trimEnd (t : Text) : Text := (dropMeasured blankLengthAtEnd 0 t.reverse).reverse

def trim (t : Text) : Text := trimEnd (trimStart t)

/-- The non-empty runs of bytes between white space characters. `done` and `current` hold, in
reverse, the fields found so far and the field being read; `skip` counts the bytes of a white
space character that are still to be passed over. -/
def fieldsFrom (done : List Text) (current : Text) : (skip : Nat) → Text → List Text
  | _, [] => (finish done current).reverse
  | skip + 1, _ :: rest => fieldsFrom done current skip rest
  | 0, b :: rest =>
    match blankLength (b :: rest) with
    | 0 => fieldsFrom done (b :: current) 0 rest
    | more + 1 => fieldsFrom (finish done current) [] more rest
where
  finish (done : List Text) (current : Text) : List Text :=
    if current.isEmpty then done else current.reverse :: done

def fields (t : Text) : List Text := fieldsFrom [] [] 0 t

end Asm64.Text
