import Asm64.Text.Printable
import Asm64.Text.Utf8

/-!
# Quoted texts

A message shows a text between double quotes. Printable characters stand for themselves, the
usual control characters have letter escapes, every other character is written by its code
point and every stray byte by its value, so the quoted form determines the text.
-/

namespace Asm64.Text

/-- How one symbol is written between `delimiter` quotes. -/
def quoteSymbol (delimiter : UInt8) : Symbol → Text
  | .stray byte => ascii "\\x" ++ hexByte byte
  | .scalar code =>
    if code = delimiter.toNat ∨ code = 92 then [92, UInt8.ofNat code]
    else if isPrintable code then encodeScalar code
    else match code with
      | 7 => ascii "\\a"
      | 8 => ascii "\\b"
      | 12 => ascii "\\f"
      | 10 => ascii "\\n"
      | 13 => ascii "\\r"
      | 9 => ascii "\\t"
      | 11 => ascii "\\v"
      | _ =>
        if code < 0x80 then ascii "\\x" ++ hex 2 code
        else if code < 0x10000 then ascii "\\u" ++ hex 4 code
        else ascii "\\U" ++ hex 8 code

def quote (t : Text) : Text :=
  34 :: (symbols t).flatMap (quoteSymbol 34) ++ [34]

/-- A single byte, as the character with that code point between single quotes. -/
def quoteByte (b : UInt8) : Text :=
  39 :: quoteSymbol 39 (.scalar b.toNat) ++ [39]

end Asm64.Text
