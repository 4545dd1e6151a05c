import Asm64.Text.Utf8

/-!
# Letter case

Mnemonics and configuration keys are compared without regard to case. Their own letters are ASCII,
and the only other characters that have the same case variants are the long s (U+017F), which
matches S, and the Kelvin sign (U+212A), which matches K.
-/

namespace Asm64.Text

/-- The form in which texts that differ only in case agree. `skip` counts the bytes of a
character that are still to be passed over; `seen` holds earlier bytes in reverse. -/
def foldCaseFrom (seen : Text) : (skip : Nat) → Text → Text
  | _, [] => seen.reverse
  | skip + 1, _ :: rest => foldCaseFrom seen skip rest
  | 0, b :: rest =>
    if [0xC5, 0xBF].isPrefixOf (b :: rest) then foldCaseFrom (83 :: seen) 1 rest
    else if [0xE2, 0x84, 0xAA].isPrefixOf (b :: rest) then foldCaseFrom (75 :: seen) 2 rest
    else foldCaseFrom (upperByte b :: seen) 0 rest

def foldCase (t : Text) : Text := foldCaseFrom [] 0 t

def equalFold (s t : Text) : Bool := foldCase s == foldCase t

/-- The characters from U+0080 to U+07FF that have an upper case form of their own: first and
last code point, and the step from one to the next. -/
def lowerCaseRanges : List (Nat × Nat × Nat) :=
  [(0xB5, 0xB5, 1), (0xE0, 0xF6, 1), (0xF8, 0xFF, 1), (0x101, 0x137, 2), (0x13A, 0x148, 2),
   (0x14B, 0x177, 2), (0x17A, 0x17E, 2), (0x17F, 0x180, 1), (0x183, 0x185, 2), (0x188, 0x188, 1),
   (0x18C, 0x18C, 1), (0x192, 0x192, 1), (0x195, 0x195, 1), (0x199, 0x19A, 1), (0x19E, 0x19E, 1),
   (0x1A1, 0x1A5, 2), (0x1A8, 0x1A8, 1), (0x1AD, 0x1AD, 1), (0x1B0, 0x1B0, 1), (0x1B4, 0x1B6, 2),
   (0x1B9, 0x1B9, 1), (0x1BD, 0x1BF, 2), (0x1C5, 0x1C6, 1), (0x1C8, 0x1C9, 1), (0x1CB, 0x1CC, 1),
   (0x1CE, 0x1DC, 2), (0x1DD, 0x1EF, 2), (0x1F2, 0x1F3, 1), (0x1F5, 0x1F5, 1), (0x1F9, 0x21F, 2),
   (0x223, 0x233, 2), (0x23C, 0x23C, 1), (0x23F, 0x240, 1), (0x242, 0x242, 1), (0x247, 0x24F, 2),
   (0x250, 0x254, 1), (0x256, 0x257, 1), (0x259, 0x25B, 2), (0x25C, 0x25C, 1), (0x260, 0x261, 1),
   (0x263, 0x265, 2), (0x266, 0x268, 2), (0x269, 0x26C, 1), (0x26F, 0x271, 2), (0x272, 0x272, 1),
   (0x275, 0x275, 1), (0x27D, 0x27D, 1), (0x280, 0x282, 2), (0x283, 0x283, 1), (0x287, 0x28C, 1),
   (0x292, 0x292, 1), (0x29D, 0x29E, 1), (0x345, 0x345, 1), (0x371, 0x373, 2), (0x377, 0x377, 1),
   (0x37B, 0x37D, 1), (0x3AC, 0x3AF, 1), (0x3B1, 0x3CE, 1), (0x3D0, 0x3D1, 1), (0x3D5, 0x3D7, 1),
   (0x3D9, 0x3EF, 2), (0x3F0, 0x3F3, 1), (0x3F5, 0x3F5, 1), (0x3F8, 0x3F8, 1), (0x3FB, 0x3FB, 1),
   (0x430, 0x45F, 1), (0x461, 0x481, 2), (0x48B, 0x4BF, 2), (0x4C2, 0x4CE, 2), (0x4CF, 0x52F, 2),
   (0x561, 0x586, 1)]

def isLowerCase (code : Nat) : Bool :=
  if code < 0x80 then 97 ≤ code ∧ code ≤ 122
  else lowerCaseRanges.any fun (first, last, step) =>
    first ≤ code ∧ code ≤ last ∧ (code - first) % step = 0

/-- Whether a text is already in upper case. It is meant for texts of two bytes, whose
characters are all below U+0800. A text with a stray byte is not. -/
def isUpperCase (t : Text) : Bool :=
  (symbols t).all fun
    | .scalar code => !isLowerCase code
    | .stray _ => false

end Asm64.Text
