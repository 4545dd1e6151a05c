import Asm64.Catalog.Table
import Asm64.Command.Basic

/-!
# The catalog command

Prints the supported instruction forms, or those of some mnemonics.
-/

namespace Asm64.Command.ShowCatalog

def outline : Outline :=
  { name := ascii "catalog", synopsis := ascii "[MNEMONIC...]", flags := [helpFlag] }

def run (_files : FileStore) (arguments : List Text) : Session Unit :=
  withFlags outline arguments fun parsed =>
    match parsed.arguments.find? fun mnemonic => !Catalog.standard.hasMnemonic mnemonic with
    | some mnemonic => throw (.unknownMnemonic mnemonic)
    | none => Session.print .print (Catalog.standard.select parsed.arguments).table

end Asm64.Command.ShowCatalog
