import Asm64.Command.Basic

/-!
# The run command

Assembles and links files, puts the code in executable memory, calls the function at the entry
point, and prints its result.
-/

namespace Asm64.Command.Run

def outline : Outline :=
  { name := ascii "run"
    synopsis := ascii "OPTIONS FILE..."
    flags :=
      [configFlag,
        .option "entry" none Config.defaultEntry "The label of the function to call.",
        helpFlag] }

def entryOffset (o : Object) (entry : Text) : Except Error Int :=
  match o.label? entry with
  | none => .error (.image (.undefinedEntry entry))
  | some l => if o.code.length ≤ l.value then .error (.entryAtEnd entry) else .ok l.value

def loadCode (code : List UInt8) : Log.Logged Error CodeBlock := do
  let block ← Log.require .memory (CodeBlock.allocate code.length)
  Log.note (.allocated code.length block.capacity)
  let written ← Log.require .misuse (block.write code)
  match written.error with
  | some e => throw (.memory e)
  | none =>
    let block ← Log.require .memory written.block.makeExecutable
    Log.note (.executable block.length)
    return block

/-- The function at the entry point of an object. -/
def function (machine : Machine) (o : Object) (entry : Text) : Log.Logged Error Function := do
  let located ← Log.require (fun e => .image (.locate e)) o.locate
  let offset ← Log.require id (entryOffset located entry)
  let block ← loadCode located.code
  let _ ← Log.require .misuse (block.function offset)
  Log.note (.created (machine.address ⟨block, offset⟩))
  Log.note (.calling entry offset located.code.length)
  return ⟨block, offset⟩

def call (machine : Machine) (files : FileStore) (o : Object) (entry : Text) : Session Int64 :=
  if machine.runsCode then do
    let f ← Session.logged id (function machine o entry)
    Session.call machine f files
  else throw .architecture

def runFiles (machine : Machine) (files : FileStore) (parsed : Flag.Parsed) : Session Unit := do
  let config ← configOf files parsed
  let entry ← entryOf config parsed
  let object ← Session.logged .load (files.loadProgram (assemblerOf config) parsed.arguments)
  let value ← call machine files object entry
  Session.print .print (Text.decimalInt value.toInt ++ [10])

def run (machine : Machine) (files : FileStore) (arguments : List Text) : Session Unit :=
  withFlags outline arguments fun parsed =>
    if parsed.arguments.isEmpty then misused outline .noInput else runFiles machine files parsed

end Asm64.Command.Run
