import Asm64.Text.Basic

/-!
# Lines

A line ends at a newline or at the end of the text. A carriage return at the end of a line is
not part of it, and a text that ends with a newline has no further, empty line.
-/

namespace Asm64.Text

/-- The lines of a text, each still with its carriage return. -/
def rawLines (t : Text) : List Text :=
  let pieces := split 10 t
  if pieces.getLast? = some [] then pieces.dropLast else pieces

def dropCarriageReturn (line : Text) : Text :=
  if line.getLast? = some 13 then line.dropLast else line

def lines (t : Text) : List Text := (rawLines t).map dropCarriageReturn

end Asm64.Text
