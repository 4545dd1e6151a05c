import Asm64.Text.Basic

/-!
# Files

The files that the commands work on, seen from the working directory. Paths are read up to empty
and `.` components. A file can be written in a directory that exists.
-/

namespace Asm64

structure File where
  content : List UInt8
  isExecutable : Bool
deriving DecidableEq, Repr

structure FileStore where
  files : List (Text × File)
  directories : List Text
deriving DecidableEq, Repr

inductive FileError where
  | missing
  | directory
deriving DecidableEq, Repr

def FileError.readMessage (path : Text) : FileError → Text
  | missing => ascii "open " ++ path ++ ascii ": no such file or directory"
  | directory => ascii "read " ++ path ++ ascii ": is a directory"

def FileError.writeMessage (path : Text) : FileError → Text
  | missing => ascii "open " ++ path ++ ascii ": no such file or directory"
  | directory => ascii "open " ++ path ++ ascii ": is a directory"

namespace FileStore

/-- The path without empty and `.` components. -/
def resolve (path : Text) : Text :=
  let name := Text.join [47] ((Text.split 47 path).filter fun part => part != [] && part != [46])
  if path.head? = some 47 then 47 :: name else name

/-- The directory that a file with a name lies in. The working directory is the empty name. -/
def parent (name : Text) : Text :=
  match Text.cutLast 47 name with
  | some (directory, _) => directory
  | none => []

def isDirectory (s : FileStore) (name : Text) : Bool :=
  name.isEmpty || s.directories.contains name

def ancestors (name : Text) : List Text :=
  let parts := Text.split 47 name
  (List.range (parts.length - 1)).map fun i => Text.join [47] (parts.take (i + 1))

/-- The store that holds just some files, and the directories they lie in. -/
def ofFiles (files : List (Text × File)) : FileStore :=
  let named := files.map fun (path, file) => (resolve path, file)
  ⟨named, named.flatMap fun (name, _) => ancestors name⟩

def read (s : FileStore) (path : Text) : Except FileError (List UInt8) :=
  if path.isEmpty then .error .missing
  else match s.files.lookup (resolve path) with
    | some file => .ok file.content
    | none => .error (if s.isDirectory (resolve path) then .directory else .missing)

def writeError? (s : FileStore) (path : Text) : Option FileError :=
  if path.isEmpty then some .missing
  else if s.isDirectory (resolve path) then some .directory
  else if s.isDirectory (parent (resolve path)) then none
  else some .missing

/-- Puts a file in the place of the one with its name, or after all others. -/
def put (name : Text) (file : File) : List (Text × File) → List (Text × File)
  | [] => [(name, file)]
  | (other, old) :: rest =>
    if other = name then (name, file) :: rest else (other, old) :: put name file rest

end FileStore

/-- A file to be written. Only a file that is new becomes executable. -/
structure FileWrite where
  path : Text
  content : List UInt8
  isExecutable : Bool
deriving DecidableEq, Repr

def FileStore.write (s : FileStore) (w : FileWrite) : FileStore :=
  let name := resolve w.path
  let isExecutable := match s.files.lookup name with
    | some old => old.isExecutable
    | none => w.isExecutable
  { s with files := put name ⟨w.content, isExecutable⟩ s.files }

end Asm64
