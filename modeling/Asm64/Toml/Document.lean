import Asm64.Toml.Parser
import Asm64.Toml.Tables
import Asm64.Toml.WrittenKeys

/-!
# TOML documents

The items of a text are entered into a tree of tables one after another. A key may be defined
once only, with these exceptions: a table that was merely passed through on the way to a deeper
key may be defined later, dotted keys may extend any table, and a key that holds an array may be
given a new value. Passing through an array of tables means its last table.

The pairs of an inline table are entered below its key at once, where all these rules apply. They
are also gathered in a table of their own, which becomes the value of the key if the key is free
to take a new one.
-/

namespace Asm64.Toml

structure Draft where
  tables : Tables
  written : WrittenKeys
  /-- Tables that may still be defined. -/
  implicit : List Key
  /-- Keys that hold arrays. -/
  arrays : List Key
  /-- The table that keys belong to. -/
  context : Scope

namespace Draft

def empty : Draft := ⟨.empty, .empty, [], [], .top⟩

def markImplicit (d : Draft) (key : Key) : Draft := { d with implicit := key :: d.implicit }

def unmarkImplicit (d : Draft) (key : Key) : Draft :=
  { d with implicit := d.implicit.filter (· != key) }

/-- Notes whether a key of the current table holds an array. An empty name stands for the table
itself. -/
def noteArray (d : Draft) (name : Text) (isArray : Bool) : Draft :=
  let key := if name.isEmpty then d.context.path else d.context.path ++ [name]
  let key := if key.isEmpty then [[]] else key
  let others := d.arrays.filter (· != key)
  { d with arrays := if isArray then key :: others else others }

/-- Records that a name is written in the current table. -/
def noteKey (d : Draft) (name : Text) : Draft :=
  { d with written := d.written.add d.context name }

def noteHeader (d : Draft) (key : Key) : Draft := { d with written := d.written.addAlone key }

def addTable (d : Draft) : Draft × Nat :=
  let (tables, number) := d.tables.add
  ({ d with tables }, number)

def define (d : Draft) (path : Key) (name : Text) (node : Node) : Option Draft := do
  let key := path ++ [name]
  let number ← d.tables.at? path
  let store (d : Draft) : Draft := { d with tables := d.tables.set number name node }
  if (d.tables.get? number name).isNone then store d
  else if d.arrays.contains key then store (d.unmarkImplicit key)
  else if d.implicit.contains key then d.unmarkImplicit key
  else none

/-- Passes through a table on the way to a deeper one, which is made if it is not there. -/
def passThrough (d : Draft) (path : Key) : Option Draft := do
  let name := path.getLast?.getD []
  let number ← d.tables.at? path.dropLast
  match d.tables.get? number name with
  | none =>
    let (d, inner) := d.addTable
    return { d with tables := d.tables.set number name (.table inner) }.markImplicit path
  | some (.value _) => none
  | some _ => return d

/-- The paths that lead to a key, from the shortest on. -/
def pathsTo (key : Key) : List Key := (List.range (key.length - 1)).map fun i => key.take (i + 1)

def appendTable (d : Draft) (path : Key) (name : Text) : Option Draft := do
  let number ← d.tables.at? path
  let numbers ← match d.tables.get? number name with
    | none => some []
    | some (.tables numbers) => some numbers
    | some _ => none
  let (d, last) := d.addTable
  return { d with tables := d.tables.set number name (.tables (numbers ++ [last])) }

def enter (d : Draft) (key : Key) (isArray : Bool) : Option Draft := do
  let d ← (pathsTo key).foldlM passThrough d
  let name := key.getLast?.getD []
  let d ←
    if isArray then d.appendTable key.dropLast name
    else
      let (d, number) := d.addTable
      d.define key.dropLast name (.table number)
  let (written, context) := d.written.layOut key
  return { d with written, context }

/-- Enters a table of the current one that a dotted key passes through. -/
def enterParent (d : Draft) (name : Text) : Option Draft :=
  let (written, scope) := d.written.extend d.context name
  ({ d with written }.markImplicit scope.path).enter scope.path false

mutual

/-- Enters what a value holds, and gives the node for it. `name` is the key it is given to, and
`inArray` tells whether it is an element of an array. -/
def enterValue (name : Text) (inArray : Bool) (d : Draft) : Value → Option (Draft × Node)
  | .array elements => do
    let d ← enterElements name (d.noteArray name true) elements
    return (d, .value (.array elements))
  | .table pairs => do
    let (written, scope) := d.written.extend d.context name
    let (inner, number) := { d with written }.addTable
    let inner ← (inner.markImplicit scope.path).enter scope.path inArray
    let inner ← enterPairs (some number) scope inner pairs
    return ({ inner with context := d.context }, .table number)
  | value => some (d, .value value)

def enterElements (name : Text) (d : Draft) : List Value → Option Draft
  | [] => some d
  | value :: rest => do
    let (d, _) ← enterValue name true d value
    enterElements name d rest

/-- Enters keys with their values, the first pair in the current table and the others in `later`.
They are gathered in the table with the number `gathered`, if there is one. -/
def enterPairs (gathered : Option Nat) (later : Scope) (d : Draft) :
    List (Key × Value) → Option Draft
  | [] => some d
  | (key, value) :: rest => do
    let parents := key.dropLast
    let name := key.getLast?.getD []
    let d ← parents.foldlM enterParent d
    let (d, node) ← enterValue name false (d.noteKey name) value
    let d ← d.define d.context.path name node
    let d := d.noteArray name value.isArray
    let tables ← match gathered with
      | some number => d.tables.setBelow number name node parents
      | none => some d.tables
    enterPairs gathered later { d with tables, context := later } rest

end

def enterItem (d : Draft) : Item → Option Draft
  | .table key => (d.enter key false).map fun d => (d.noteArray [] false).noteHeader key
  | .arrayTable key => (d.enter key true).map fun d => (d.noteArray [] false).noteHeader key
  | .pair key value => enterPairs none d.context d [(key, value)]

end Draft

structure Document where
  /-- What the table of the whole document holds. -/
  root : Entries
  /-- All keys in the order in which they were written. -/
  keys : List Key

def Document.parse (t : Text) : Option Document := do
  let items ← Toml.parse t
  let d ← items.foldlM Draft.enterItem .empty
  return ⟨d.tables.entries 0, d.written.toList⟩

end Asm64.Toml
