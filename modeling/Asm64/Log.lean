import Asm64.Object.Basic

/-!
# Log entries

What the tools report about their work, for those who ask for it. An entry is a message with
named values.
-/

namespace Asm64.Log

inductive Value where
  | text (value : Text)
  | number (value : Int)
deriving DecidableEq, Repr

structure Entry where
  message : Text
  fields : List (Text × Value)
deriving DecidableEq, Repr

def entry (message : String) (fields : List (String × Value)) : Entry :=
  ⟨ascii message, fields.map fun (name, value) => (ascii name, value)⟩

/-- The size of an object and the numbers of its labels and open relocations. -/
def objectFields (o : Object) : List (String × Value) :=
  [("size", .number o.code.length), ("labels", .number o.labels.length),
    ("unresolved", .number o.relocations.length)]

/-- Work that is logged. What was logged before a failure is kept. -/
abbrev Logged (ε : Type) := ExceptT ε (StateM (List Entry))

def note {ε : Type} (e : Entry) : Logged ε Unit := modify (· ++ [e])

/-- Goes on with a result, or fails with its cause. -/
def require {ε δ α : Type} (cause : δ → ε) (result : Except δ α) : Logged ε α :=
  ExceptT.mk (pure (result.mapError cause))

def Entry.assembled (o : Object) : Entry := entry "assembled object" (objectFields o)

def Entry.linked (base : Nat) (o : Object) : Entry :=
  entry "linked object" (("base", .number base) :: objectFields o)

def Entry.decoded (file : Text) : Entry := entry "decoded object file" [("file", .text file)]

def Entry.allocated (requested size : Nat) : Entry :=
  entry "allocated block" [("requested", .number requested), ("size", .number size)]

def Entry.executable (length : Nat) : Entry :=
  entry "block is executable" [("len", .number length)]

def Entry.created (address : Nat) : Entry :=
  entry "created function" [("entry", .text (ascii "0x" ++ Text.hex 1 address))]

def Entry.calling (name : Text) (offset : Int) (size : Nat) : Entry :=
  entry "calling entry point"
    [("entry", .text name), ("offset", .number offset), ("size", .number size)]

def Entry.running (command : Text) : Entry := entry "running command" [("command", .text command)]

end Asm64.Log
