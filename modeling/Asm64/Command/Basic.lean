import Asm64.CodeBlock
import Asm64.Command.Flag
import Asm64.Config
import Asm64.Image.Elf
import Asm64.Load
import Asm64.Machine
import Asm64.ObjectFile.Encode

/-!
# Commands

A command looks at files, prints text, and writes at most one file or calls a function, which may
do anything to them. What it printed and logged before a failure is kept. Every failure has its own
cause. Where a command prints, its text may be refused.
-/

namespace Asm64.Command

def program : Text := ascii "asmacro"

inductive UsageError where
  | flag (error : Flag.Error)
  | sourceCount (count : Nat)
  | noOutput
  | noInput
  | invalidEntry (entry : Text)
deriving DecidableEq, Repr

def UsageError.message : UsageError → Text
  | flag error => error.message
  | sourceCount count => ascii "expected one source file, got " ++ Text.decimal count
  | noOutput => ascii "no output file"
  | noInput => ascii "no input files"
  | invalidEntry entry => ascii "invalid entry point " ++ Text.quote entry

inductive Error where
  | usage (error : UsageError)
  | configFile (path : Text) (error : FileError)
  | config (path : Text) (error : Config.Error)
  | read (path : Text) (error : FileError)
  | assemble (path : Text) (error : Assembler.Error)
  | locate (path : Text) (error : LocateError)
  | encode (path : Text) (error : ObjectFile.EncodeError)
  | write (path : Text) (error : FileError)
  | load (error : LoadError)
  | image (error : ImageError)
  | elf (error : Elf.Error)
  | entryAtEnd (entry : Text)
  | memory (error : CodeBlock.Error)
  | misuse (error : CodeBlock.Misuse)
  /-- The machine does not run the code. -/
  | architecture
  | unknownMnemonic (mnemonic : Text)
  | unknownCommand (command word : Text) (suggestions : List Text)
  | emptyRequest
  | programFlag (error : Flag.Error)
  /-- What the command is for cannot be printed. -/
  | print (cause : Text)
deriving DecidableEq, Repr

def Error.message : Error → Text
  | usage error => ascii "invalid usage: " ++ error.message
  | configFile path error => ascii "failed to read config: " ++ error.readMessage path
  | config path error => ascii "failed to parse config " ++ path ++ ascii ": " ++ error.message
  | read path error => ascii "failed to read " ++ path ++ ascii ": " ++ error.readMessage path
  | assemble path error => path ++ ascii ": " ++ error.message
  | locate path error => path ++ ascii ": " ++ error.message
  | encode path error => ascii "failed to encode " ++ path ++ ascii ": " ++ error.message
  | write path error => ascii "failed to write " ++ path ++ ascii ": " ++ error.writeMessage path
  | load error => error.message
  | image error => error.message
  | elf error => ascii "failed to encode binary: " ++ error.message
  | entryAtEnd entry =>
    ascii "entry point " ++ Text.quote entry ++ ascii " is at the end of the code"
  | memory error => error.message
  | misuse error => error.message
  | architecture => ascii "run: host architecture is not amd64"
  | unknownMnemonic mnemonic => ascii "unknown instruction " ++ Text.quote mnemonic
  | unknownCommand command word suggestions =>
    ascii "unknown command " ++ Text.quote word ++ ascii " for " ++ Text.quote command ++
      if suggestions.isEmpty then []
      else ascii "\n\nDid you mean this?\n" ++ suggestions.flatMap fun name => 9 :: name ++ [10]
  | emptyRequest => ascii "requires at least 1 arg(s), only received 0"
  | programFlag error => error.message
  | print cause => cause

/-- What a command does to the files. -/
inductive Change where
  | write (w : FileWrite)
  /-- A function that was called has left these. -/
  | call (left : FileStore)
deriving DecidableEq, Repr

def Change.apply (files : FileStore) : Change → FileStore
  | write w => files.write w
  | call left => left

/-- What a command leaves behind. -/
structure Report where
  output : Text
  log : List Log.Entry
  change : Option Change
deriving DecidableEq, Repr

def Report.empty : Report := ⟨[], [], none⟩

def Report.filesAfter (r : Report) (files : FileStore) : FileStore :=
  r.change.elim files (Change.apply files)

/-- Where a command prints. A text is taken or refused as a whole. -/
structure Printer where
  /-- Why a text is refused after what was printed before. -/
  refusal? : (printed text : Text) → Option Text

def Printer.accepting : Printer := ⟨fun _ _ => none⟩

abbrev Session := ReaderT Printer (ExceptT Error (StateM Report))

namespace Session

/-- The result of a session, and the report after it. -/
def runOn {α : Type} (work : Session α) (printer : Printer) (r : Report) :
    Except Error α × Report :=
  (work.run printer).run.run r

/-- Why a text cannot be printed now. There is nothing to refuse about no text. -/
def refusal? (t : Text) : Session (Option Text) := do
  if t.isEmpty then return none
  return (← read).refusal? (← get).output t

def print (failure : Text → Error) (t : Text) : Session Unit := do
  match ← refusal? t with
  | some cause => throw (failure cause)
  | none => modify fun r => { r with output := r.output ++ t }

def offer (t : Text) : Session Unit := do
  if (← refusal? t).isNone then modify fun r => { r with output := r.output ++ t }

def note (e : Log.Entry) : Session Unit := modify fun r => { r with log := r.log ++ [e] }

def require {ε α : Type} (cause : ε → Error) : Except ε α → Session α
  | .ok a => pure a
  | .error e => throw (cause e)

/-- Does logged work in a session. -/
def logged {ε α : Type} (cause : ε → Error) (work : Log.Logged ε α) : Session α := do
  let (result, entries) := work.run.run []
  modify fun r => { r with log := r.log ++ entries }
  require cause result

def save (files : FileStore) (w : FileWrite) : Session Unit := do
  match files.writeError? w.path with
  | some e => throw (.write w.path e)
  | none => modify fun r => { r with change := some (.write w) }

/-- Calls a function, and goes on with its result. -/
def call (machine : Machine) (f : Function) (files : FileStore) : Session Int64 := do
  let returned := machine.call f files
  modify fun r => { r with change := some (.call returned.files) }
  return returned.value

end Session

/-- What a command is called, how it is used, and which flags it has. -/
structure Outline where
  name : Text
  synopsis : Text
  flags : List Flag

def Outline.usage (o : Outline) : Text :=
  ascii "Usage:\n  " ++ program ++ [32] ++ o.name ++ [32] ++ o.synopsis ++ ascii "\n\n" ++
    Flag.usage o.flags

def helpFlag : Flag := .switch "help" (some 104) "Show this message and exit."

def configFlag : Flag :=
  .option "config" none [] "The config file (default asmacro.toml if present)."

/-- Reads the flags of a command, and goes on unless help is asked for. -/
def withFlags (o : Outline) (arguments : List Text) (work : Flag.Parsed → Session Unit) :
    Session Unit := do
  let parsed ← Session.require (fun e => .usage (.flag e)) (Flag.parse o.flags arguments)
  if parsed.isOn "help" then Session.offer o.usage else work parsed

/-- Fails after showing how the command is used. -/
def misused {α : Type} (o : Outline) (error : UsageError) : Session α := do
  Session.offer o.usage
  throw (.usage error)

/-- The configuration in a file. Without a path it is that in the default file, if there is one. -/
def readConfig (files : FileStore) (path : Text) : Except Error Config :=
  let name := if path.isEmpty then Config.defaultFile else path
  match files.read name with
  | .error e =>
    if path.isEmpty ∧ e = .missing then .ok .default else .error (.configFile name e)
  | .ok text => (Config.parse text).mapError (.config name)

def configOf (files : FileStore) (parsed : Flag.Parsed) : Session Config :=
  Session.require id (readConfig files ((parsed.value? "config").getD []))

def entryPoint (config : Config) (parsed : Flag.Parsed) : Except Error Text :=
  match parsed.value? "entry" with
  | none => .ok config.entry
  | some entry =>
    if Text.isIdentifier entry then .ok entry else .error (.usage (.invalidEntry entry))

def entryOf (config : Config) (parsed : Flag.Parsed) : Session Text :=
  Session.require id (entryPoint config parsed)

def assemblerOf (config : Config) : Assembler :=
  { Assembler.standard with accumulateErrors := config.accumulateErrors }

end Asm64.Command
