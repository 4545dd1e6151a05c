import Asm64.Toml.Basic

/-!
# Tables

The tables of a document are numbered, and a node names a table by its number, so one table may
stand in several places and a change of it is seen in all of them. The table of the whole document
has the number 0.
-/

namespace Asm64.Toml

inductive Node where
  | value (value : Value)
  | table (number : Nat)
  /-- An array of tables. -/
  | tables (numbers : List Nat)

abbrev Entries := List (Text × Node)

/-- Sets an entry, in its place if it is there already. -/
def Entries.set (name : Text) (node : Node) : Entries → Entries
  | [] => [(name, node)]
  | (other, old) :: rest =>
    if other = name then (name, node) :: rest else (other, old) :: set name node rest

structure Tables where
  contents : Array Entries

namespace Tables

def empty : Tables := ⟨#[[]]⟩

def entries (t : Tables) (number : Nat) : Entries := t.contents.getD number []

def get? (t : Tables) (number : Nat) (name : Text) : Option Node := (t.entries number).lookup name

def set (t : Tables) (number : Nat) (name : Text) (node : Node) : Tables :=
  ⟨t.contents.modify number (Entries.set name node)⟩

/-- Adds an empty table, and gives its number. -/
def add (t : Tables) : Tables × Nat := (⟨t.contents.push []⟩, t.contents.size)

def step? (t : Tables) (number : Nat) (name : Text) : Option Nat :=
  match t.get? number name with
  | some (.table inner) => some inner
  | some (.tables inners) => inners.getLast?
  | _ => none

def at? (t : Tables) (path : Key) : Option Nat := path.foldlM t.step? 0

/-- Sets an entry of the table that a path leads to from another one. Tables that are missing are
made, and an array of tables does not lead on. -/
def setBelow (t : Tables) (number : Nat) (name : Text) (node : Node) : (path : Key) → Option Tables
  | [] => some (t.set number name node)
  | part :: path =>
    match t.get? number part with
    | none =>
      let (t, inner) := t.add
      setBelow (t.set number part (.table inner)) inner name node path
    | some (.table inner) => setBelow t inner name node path
    | some _ => none

end Tables

end Asm64.Toml
