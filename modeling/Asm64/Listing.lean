import Asm64.Text.Basic

/-!
# Listings

A listing shows the code next to the statements that it comes from, eight bytes a row. The text
of a statement stands in its first row.
-/

namespace Asm64.Listing

/-- The part of the code that a statement produced. -/
structure Entry where
  text : Text
  start : Nat
  stop : Nat
deriving DecidableEq, Repr

structure Row where
  offset : Nat
  bytes : List UInt8
  text : Text
deriving DecidableEq, Repr

def rowLength : Nat := 8

/-- Splits bytes into rows from `offset` on, the first of which shows `text`. -/
def rowsOf (text : Text) (offset : Nat) (bytes : List UInt8) : List Row :=
  match bytes with
  | [] => []
  | b :: rest =>
    ⟨offset, (b :: rest).take rowLength, text⟩ ::
      rowsOf [] (offset + rowLength) ((b :: rest).drop rowLength)
termination_by bytes.length
decreasing_by simp only [List.length_drop, List.length_cons, rowLength]; omega

def Entry.rows (code : List UInt8) (entry : Entry) : List Row :=
  rowsOf entry.text entry.start ((code.take entry.stop).drop entry.start)

def Row.render (row : Row) : Text :=
  let bytes := Text.hexBytes row.bytes
  Text.hex 4 row.offset ++ ascii "  " ++
    (if row.text.isEmpty then bytes
     else Text.padEnd (3 * rowLength - 1) 32 bytes ++ ascii "  " ++ row.text) ++ [10]

def rows (code : List UInt8) (entries : List Entry) : List Row :=
  entries.flatMap (Entry.rows code)

def render (code : List UInt8) (entries : List Entry) : Text :=
  (rows code entries).flatMap Row.render

end Asm64.Listing
