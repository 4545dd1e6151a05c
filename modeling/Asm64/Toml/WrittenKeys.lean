import Asm64.Toml.Basic

/-!
# Written keys

The keys of a document are recorded in the order in which they are written. A key is the path of
the table it belongs to and a name, and it is laid out in the row of that path as long as there is
room for one more part. Keys in one row share their parts: whoever writes a part there changes it
in all of them, so the keys of a deep table all end up with the name that was written last. A key
that found no room stands alone and keeps its parts.
-/

namespace Asm64.Toml

/-- The table that names belong to while a document is read, and the row its path is laid out in. -/
structure Scope where
  path : Key
  row : Nat
  /-- How many more parts fit in the row. -/
  room : Nat

def Scope.top : Scope := ⟨[], 0, 0⟩

structure WrittenKey where
  key : Key
  /-- The row that the key shares with others. -/
  row : Option Nat

structure WrittenKeys where
  /-- All keys, from the last one on. -/
  keys : List WrittenKey
  /-- How many rows there are. -/
  rows : Nat

namespace WrittenKeys

/-- No keys yet, and one row for the empty path. -/
def empty : WrittenKeys := ⟨[], 1⟩

def toList (w : WrittenKeys) : List Key := (w.keys.map (·.key)).reverse

/-- Lays out a path in a row of its own. The row has two places for each part above the last one, so a
path of `n` parts leaves room for `n - 2` more. -/
def layOut (w : WrittenKeys) (path : Key) : WrittenKeys × Scope :=
  ({ w with rows := w.rows + 1 }, ⟨path, w.rows, path.length - 2⟩)

/-- Writes a name after the path of a scope, into the row. -/
def write (w : WrittenKeys) (scope : Scope) (name : Text) : WrittenKeys :=
  { w with
    keys := w.keys.map fun k =>
      if k.row = some scope.row then { k with key := k.key.set scope.path.length name } else k }

def extend (w : WrittenKeys) (scope : Scope) (name : Text) : WrittenKeys × Scope :=
  if scope.room = 0 then w.layOut (scope.path ++ [name])
  else (w.write scope name, ⟨scope.path ++ [name], scope.row, scope.room - 1⟩)

def addAlone (w : WrittenKeys) (key : Key) : WrittenKeys :=
  { w with keys := ⟨key, none⟩ :: w.keys }

def add (w : WrittenKeys) (scope : Scope) (name : Text) : WrittenKeys :=
  if scope.room = 0 then w.addAlone (scope.path ++ [name])
  else
    let w := w.write scope name
    { w with keys := ⟨scope.path ++ [name], some scope.row⟩ :: w.keys }

end WrittenKeys

end Asm64.Toml
