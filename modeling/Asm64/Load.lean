import Asm64.Assembler
import Asm64.FileStore
import Asm64.Log
import Asm64.ObjectFile.Decode

/-!
# Loading programs

A program is given as files, each of which is an object file or a source file. Which of the two it
is can be seen from its first bytes. The objects are linked in the order of the files.
-/

namespace Asm64

inductive LoadError where
  | noFiles
  | file (path : Text) (error : FileError)
  | decode (path : Text) (error : ObjectFile.DecodeError)
  | assemble (path : Text) (error : Assembler.Error)
  | link (path : Text) (error : LinkError)
deriving DecidableEq, Repr

def LoadError.message : LoadError → Text
  | noFiles => ascii "no input files"
  | file path error => error.readMessage path
  | decode path error => path ++ ascii ": " ++ error.message
  | assemble path error => path ++ ascii ": " ++ error.message
  | link path error => ascii "failed to link " ++ path ++ ascii ": " ++ error.message

namespace FileStore

def loadObject (files : FileStore) (assembler : Assembler) (path : Text) :
    Log.Logged LoadError Object := do
  match files.read path with
  | .error e => throw (.file path e)
  | .ok data =>
    if ObjectFile.isObject data then
      match ObjectFile.decode data with
      | .error e => throw (.decode path e)
      | .ok object =>
        Log.note (.decoded path)
        return object
    else
      match assembler.assemble data with
      | .error e => throw (.assemble path e)
      | .ok assembly =>
        Log.note (.assembled assembly.object)
        return assembly.object

def linkObject (files : FileStore) (assembler : Assembler) (linked : Object) (path : Text) :
    Log.Logged LoadError Object := do
  let other ← files.loadObject assembler path
  match (linked.link other).result with
  | .error e => throw (.link path e)
  | .ok object =>
    Log.note (.linked linked.linkBase object)
    return object

def loadProgram (files : FileStore) (assembler : Assembler) (paths : List Text) :
    Log.Logged LoadError Object :=
  match paths with
  | [] => throw .noFiles
  | first :: rest => do
    let object ← files.loadObject assembler first
    rest.foldlM (files.linkObject assembler) object

end FileStore

end Asm64
