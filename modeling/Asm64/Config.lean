import Asm64.Text.LetterCase
import Asm64.Text.Quoted
import Asm64.Toml.Document

/-!
# Configuration

A configuration file sets the entry point of executables and the behaviour of the assembler. Its
keys are matched without regard to case, and other keys are refused.
-/

namespace Asm64

structure Config where
  entry : Text
  accumulateErrors : Bool
  listing : Bool
deriving DecidableEq, Repr

namespace Config

def defaultFile : Text := ascii "asmacro.toml"

def defaultEntry : Text := ascii "_start"

def default : Config := ⟨defaultEntry, false, false⟩

inductive Error where
  /-- The text is not TOML, or a value has the wrong type. -/
  | toml
  | unknownKeys (keys : List Toml.Key)
  | invalidEntry (entry : Text)
deriving DecidableEq, Repr

def Error.message : Error → Text
  | toml => []
  | unknownKeys keys => ascii "unknown keys: " ++ Text.join (ascii ", ") (keys.map Toml.renderKey)
  | invalidEntry entry => ascii "invalid entry point " ++ Text.quote entry

inductive Setting where
  | entry
  | accumulateErrors
  | listing
deriving DecidableEq, Repr

def Setting.key : Setting → Text
  | entry => ascii "entry"
  | accumulateErrors => ascii "accumulate-errors"
  | listing => ascii "listing"

def Setting.all : List Setting := [entry, accumulateErrors, listing]

def setting? (name : Text) : Option Setting := Setting.all.find? fun s => Text.equalFold s.key name

/-- Changes a setting, if the value has its type. -/
def apply (c : Config) (s : Setting) (node : Toml.Node) : Except Error Config :=
  match s, node with
  | .entry, .value (.text entry) => .ok { c with entry }
  | .accumulateErrors, .value (.boolean accumulateErrors) => .ok { c with accumulateErrors }
  | .listing, .value (.boolean listing) => .ok { c with listing }
  | _, _ => .error .toml

def isKnown (key : Toml.Key) : Bool :=
  match key with
  | [name] => (setting? name).isSome
  | _ => false

def ofDocument (document : Toml.Document) : Except Error Config := do
  let config ← document.root.foldlM
    (fun c (name, node) =>
      match setting? name with
      | some s => c.apply s node
      | none => .ok c)
    default
  let unknown := document.keys.filter fun key => !isKnown key
  if !unknown.isEmpty then .error (.unknownKeys unknown)
  if !Text.isIdentifier config.entry then .error (.invalidEntry config.entry)
  return config

def parse (t : Text) : Except Error Config :=
  match Toml.Document.parse t with
  | some document => ofDocument document
  | none => .error .toml

end Config

end Asm64
