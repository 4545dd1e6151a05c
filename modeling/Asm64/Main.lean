import Asm64.Command.Shell
import Asm64.Text.Utf8

/-!
# The executable

Reads the files that the arguments may name, runs the program on them, prints what it says, and
writes the file that it made. Code that is assembled cannot be called from here.
-/

namespace Asm64.Main

/-- The paths that an argument may hold: itself, or the value of a flag. -/
def pathsIn (argument : Text) : List Text :=
  match argument with
  | 45 :: 45 :: rest => ((Text.cut 61 rest).map (·.2)).toList
  | 45 :: _ :: rest => [rest, rest.drop 1]
  | _ => [argument]

def readFile (path : Text) : IO (Option (Text × File)) := do
  try
    let content ← IO.FS.readBinFile (Text.display path)
    return some (path, ⟨content.toList, false⟩)
  catch _ => return none

/-- The files that the arguments may name. Directories are taken to exist. -/
def readStore (arguments : List Text) : IO FileStore := do
  let paths := Config.defaultFile :: arguments.flatMap pathsIn
  let files ← paths.filterMapM readFile
  return ⟨files.map fun (path, file) => (FileStore.resolve path, file),
    paths.map fun path => FileStore.parent (FileStore.resolve path)⟩

def writeBytes (stream : IO.FS.Stream) (bytes : List UInt8) : IO Unit := do
  stream.write ⟨bytes.toArray⟩
  stream.flush

/-- Writes a file, and makes it executable if it is a program. -/
def saveFile (name : Text) (file : File) : IO Unit := do
  IO.FS.writeBinFile (Text.display name) ⟨file.content.toArray⟩
  if file.isExecutable then
    let full : IO.AccessRight := { read := true, write := true, execution := true }
    let limited : IO.AccessRight := { read := true, execution := true }
    IO.setAccessRights (Text.display name) { user := full, group := limited, other := limited }

/-- Writes the files that differ from those before. -/
def saveChanges (before after : FileStore) : IO (Except Command.Error Unit) := do
  for (name, file) in after.files do
    if before.files.lookup name ≠ some file then
      try saveFile name file catch _ => return .error (.write name .missing)
  return .ok ()

def renderEntry (e : Log.Entry) : Text :=
  ascii "level=debug msg=" ++ Text.quote e.message ++
    e.fields.flatMap (fun (name, value) =>
      [32] ++ name ++ [61] ++
        match value with
        | .text t => t
        | .number n => Text.decimalInt n) ++ [10]

end Asm64.Main

open Asm64 in
def main (args : List String) : IO UInt32 := do
  let arguments := args.map Text.ofString
  let store ← Main.readStore arguments
  let answer := Command.runProgramOn .foreign store arguments
  Main.writeBytes (← IO.getStdout) answer.output
  Main.writeBytes (← IO.getStderr) (answer.log.flatMap Main.renderEntry)
  let saved ← Main.saveChanges store answer.files
  match answer.result.bind fun _ => saved with
  | .ok () => return 0
  | .error e =>
    Main.writeBytes (← IO.getStderr) (ascii "level=fatal msg=" ++ Text.quote e.message ++ [10])
    return 1
