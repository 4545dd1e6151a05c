import Asm64.Command.Basic
import Asm64.Command.Word

/-!
# Help

Besides its commands the program offers general help, scripts that complete command lines in a
shell, and the completions that such a script asks for. The texts themselves are not kept here: a
topic only tells whether it is called in the right way.
-/

namespace Asm64.Command.Help

def programFlags : List Flag :=
  [.switch "help" (some 104) "Show general help.",
    .switch "verbose" (some 118) "Print debug logging."]

/-- The flag for scripts that show no descriptions. -/
def briefFlag : Flag := .switch "no-descriptions" none "disable completion descriptions"

inductive Topic where
  | general
  /-- Scripts for shells. -/
  | completion
  /-- A request of such a script. -/
  | request
deriving DecidableEq, Repr

def completionName : Text := ascii "completion"

def topic? (word : Text) : Option Topic :=
  if word = ascii "help" then some .general
  else if word = completionName then some .completion
  else if word = ascii "__complete" ∨ word = ascii "__completeNoDesc" then some .request
  else none

def shells : List Text := [ascii "bash", ascii "zsh", ascii "fish", ascii "powershell"]

def readFlags (flags : List Flag) (arguments : List Text) : Except Error Flag.Parsed :=
  (Flag.parse flags arguments).mapError .programFlag

/-- General help on whatever is asked for. -/
def general (arguments : List Text) : Except Error Unit := do
  let _ ← readFlags programFlags arguments

def script (shell : Text) (arguments : List Text) : Except Error Unit := do
  let parsed ← readFlags (briefFlag :: programFlags) arguments
  if !parsed.isOn "help" then
    match parsed.arguments with
    | word :: _ =>
      throw (.unknownCommand (Text.join [32] [program, completionName, shell]) word [])
    | [] => pure ()

/-- The script for the shell that the first word names, or general help. -/
def completion (arguments : List Text) : Except Error Unit :=
  match words arguments with
  | shell :: _ =>
    if shells.contains shell then script shell (withoutWord shell arguments)
    else general arguments
  | [] => general arguments

/-- Completions of a command line, which has at least one argument. -/
def request (arguments : List Text) : Except Error Unit :=
  if arguments.isEmpty then .error .emptyRequest else .ok ()

def Topic.run : Topic → List Text → Except Error Unit
  | general => Help.general
  | completion => Help.completion
  | request => Help.request

end Asm64.Command.Help
