import Asm64.Catalog.Basic

/-!
# Printing a catalog

Forms are printed in two columns: mnemonic and operand types, then the encoding. The second
column starts two spaces after the longest entry of the first.
-/

namespace Asm64.Catalog

/-- The forms with one of the mnemonics, or all forms if no mnemonic is given. -/
def select (c : Catalog) (mnemonics : List Text) : Catalog :=
  if mnemonics.isEmpty then c
  else c.filter fun entry => mnemonics.any fun mnemonic => entry.form.hasMnemonic mnemonic

def table (c : Catalog) : Text :=
  let rows := c.map fun entry => (entry.form.renderExpression, entry.form.encoding.render)
  let width := (rows.map fun row => row.1.length).foldl max 0 + 2
  rows.flatMap fun (expression, encoding) => Text.padEnd width 32 expression ++ encoding ++ [10]

end Asm64.Catalog
