import Asm64.Command.Basic

/-!
# The link command

Links source and object files into an ELF executable.
-/

namespace Asm64.Command.Link

def outline : Outline :=
  { name := ascii "link"
    synopsis := ascii "OPTIONS FILE..."
    flags :=
      [configFlag,
        .option "entry" none Config.defaultEntry "The entry point label.",
        helpFlag,
        .switch "map" none "Print the address of each symbol.",
        .option "output" (some 111) [] "The name of the linked binary."] }

def linkFiles (files : FileStore) (parsed : Flag.Parsed) (output : Text) : Session Unit := do
  let config ← configOf files parsed
  let entry ← entryOf config parsed
  let object ← Session.logged .load (files.loadProgram (assemblerOf config) parsed.arguments)
  let image ← Session.require .image (object.image entry)
  let written := Elf.encode image
  let content ← Session.require .elf written.result
  Session.save files ⟨output, content, true⟩
  let address := match written.image.entrySymbol? with
    | some symbol => symbol.address.toNat
    | none => 0
  Session.note (Log.entry "wrote executable"
    [("file", .text output), ("size", .number content.length),
      ("entry", .text (ascii "0x" ++ Text.hex 1 address)),
      ("symbols", .number written.image.symbols.length)])
  if parsed.isOn "map" then Session.print .print written.image.symbolMap

def run (files : FileStore) (arguments : List Text) : Session Unit :=
  withFlags outline arguments fun parsed =>
    let output := (parsed.value? "output").getD []
    if output.isEmpty then misused outline .noOutput
    else if parsed.arguments.isEmpty then misused outline .noInput
    else linkFiles files parsed output

end Asm64.Command.Link
