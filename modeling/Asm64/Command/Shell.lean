import Asm64.Command.Assemble
import Asm64.Command.Help
import Asm64.Command.Link
import Asm64.Command.Run
import Asm64.Command.ShowCatalog

/-!
# The command line

The first word names the command, and all other arguments are passed on to it. The commands are
kept in a table, to which further ones can be added.
-/

namespace Asm64.Command

structure Named where
  name : Text
  run : FileStore → List Text → Session Unit

/-- The commands of the program on a machine. -/
def allOn (machine : Machine) : List Named :=
  [⟨Assemble.outline.name, Assemble.run⟩, ⟨ShowCatalog.outline.name, ShowCatalog.run⟩,
    ⟨Link.outline.name, Link.run⟩, ⟨Run.outline.name, Run.run machine⟩]

def all : List Named := allOn .idle

inductive RegisterError where
  | taken (name : Text)
  | notImplemented (name : Text)
deriving DecidableEq, Repr

def RegisterError.message : RegisterError → Text
  | taken name => ascii "command " ++ name ++ ascii " already registered"
  | notImplemented name => ascii "command " ++ name ++ ascii " registered with nil implementation"

def register (table : List Named) (name : Text)
    (run : Option (FileStore → List Text → Session Unit)) : Except RegisterError (List Named) :=
  if table.any (·.name = name) then .error (.taken name)
  else match run with
    | none => .error (.notImplemented name)
    | some run => .ok (table ++ [⟨name, run⟩])

/-- The names of commands in alphabetical order. -/
def names (table : List Named) : List Text :=
  (table.map (·.name)).mergeSort fun s t => s ≤ t

def splitVerbose : List Text → List Text × Bool
  | [] => ([], false)
  | argument :: rest =>
    if argument = ascii "--" then (argument :: rest, false)
    else
      let (others, verbose) := splitVerbose rest
      if argument = ascii "-v" ∨ argument = ascii "--verbose" then (others, true)
      else (argument :: others, verbose)

/-- What a call of the program leads to. -/
structure Answer where
  result : Except Error Unit
  output : Text
  log : List Log.Entry
  files : FileStore

/-- Calls a command. Its log is shown only if it is asked for. -/
def call (command : Named) (files : FileStore) (arguments : List Text) : Answer :=
  let (arguments, verbose) := splitVerbose arguments
  let work : Session Unit := do
    Session.note (.running command.name)
    command.run files arguments
  let (result, report) := work.runOn .accepting .empty
  { result
    output := report.output
    log := if verbose then report.log else []
    files := report.filesAfter files }

def Answer.plain (files : FileStore) (result : Except Error Unit) : Answer := ⟨result, [], [], files⟩

def runProgramOn (machine : Machine) (files : FileStore) (arguments : List Text) : Answer :=
  match words arguments with
  | [] => .plain files (Help.general arguments)
  | word :: _ =>
    let rest := withoutWord word arguments
    match (allOn machine).find? (·.name = word) with
    | some command => call command files rest
    | none =>
      .plain files <|
        match Help.topic? word with
        | some topic => topic.run rest
        | none =>
          let names := all.map (·.name) ++ [Help.completionName]
          .error (.unknownCommand program word (suggestions names word))

/-- Runs the program, with nothing done by the functions that it calls. -/
def runProgram (files : FileStore) (arguments : List Text) : Answer :=
  runProgramOn .idle files arguments

end Asm64.Command
