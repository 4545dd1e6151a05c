import Asm64.Command.Basic

/-!
# The asm command

Assembles one source file and writes an object file or, on request, the located machine code
alone.
-/

namespace Asm64.Command.Assemble

def outline : Outline :=
  { name := ascii "asm"
    synopsis := ascii "OPTIONS FILE"
    flags :=
      [configFlag, helpFlag,
        .switch "listing" none "Print a listing of the assembled code.",
        .option "output" (some 111) [] "The output file name.",
        .switch "raw" none "Write the located machine code, rather than an object file."] }

def dropExtension (path : Text) : Text :=
  match Text.cutLast 46 path with
  | some (stem, extension) => if extension.contains 47 then path else stem
  | none => path

def outputName (source : Text) (raw : Bool) : Text :=
  dropExtension source ++ if raw then ascii ".bin" else ascii ".obj"

def contentOf (source : Text) (raw : Bool) (o : Object) : Except Error (List UInt8) :=
  if raw then (o.locate.map (·.code)).mapError (.locate source)
  else (ObjectFile.encode o).mapError (.encode source)

/-- The path that is written to: the one that is given, or a name after that of the source. -/
def outputPath (parsed : Flag.Parsed) (source : Text) : Text :=
  let given := (parsed.value? "output").getD []
  if given.isEmpty then outputName source (parsed.isOn "raw") else given

def saveObject (files : FileStore) (parsed : Flag.Parsed) (source : Text) (o : Object) :
    Session Unit := do
  let content ← Session.require id (contentOf source (parsed.isOn "raw") o)
  let output := outputPath parsed source
  Session.save files ⟨output, content, false⟩
  Session.note (Log.entry "wrote output"
    [("file", .text output), ("size", .number content.length),
      ("labels", .number o.labels.length)])

def assembleFile (files : FileStore) (parsed : Flag.Parsed) (source : Text) : Session Unit := do
  let config ← configOf files parsed
  let text ← Session.require (.read source) (files.read source)
  let assembly ← Session.require (.assemble source) ((assemblerOf config).assemble text)
  Session.note (.assembled assembly.object)
  if parsed.isOn "listing" || config.listing then
    Session.print (fun cause => .assemble source (.listing cause)) assembly.listing
  saveObject files parsed source assembly.object

def run (files : FileStore) (arguments : List Text) : Session Unit :=
  withFlags outline arguments fun parsed =>
    match parsed.arguments with
    | [source] => assembleFile files parsed source
    | sources => misused outline (.sourceCount sources.length)

end Asm64.Command.Assemble
