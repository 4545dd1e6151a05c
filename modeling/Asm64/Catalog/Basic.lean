import Asm64.Form
import Asm64.Text.Lines

/-!
# Catalogs

A catalog is an ordered list of instruction forms, each with the text it was written as. Where
several forms accept the same operands, the first one is used. Its written form has one entry a
line; blank lines and lines that start with `//` are skipped.
-/

namespace Asm64

structure Catalog.Entry where
  text : Text
  form : Form
deriving DecidableEq, Repr

abbrev Catalog := List Catalog.Entry

namespace Catalog

namespace Entry

/-- The entry for a form, as it is usually written. -/
def ofForm (form : Form) : Entry := ⟨form.render, form⟩

def parse (t : Text) : Except Form.ParseError Entry :=
  (Form.parse t).map fun form => ⟨t, form⟩

end Entry

inductive ParseError where
  | entry (line : Nat) (error : Form.ParseError)
  | lineTooLong
deriving DecidableEq, Repr

def ParseError.message : ParseError → Text
  | entry line error => ascii "line " ++ Text.decimal line ++ ascii ": " ++ error.message
  | lineTooLong => ascii "bufio.Scanner: token too long"

/-- The number of bytes that a line must stay below. -/
def lineLimit : Nat := 65536

def isComment (entry : Text) : Bool := entry.isEmpty || Text.startsWith (ascii "//") entry

/-- Reads lines from the line with the given number on. `seen` holds earlier entries in
reverse. -/
def parseLines (seen : Catalog) : (number : Nat) → List Text → Except ParseError Catalog
  | _, [] => .ok seen.reverse
  | number, line :: rest =>
    if lineLimit ≤ line.length then .error .lineTooLong
    else
      let text := Text.trim (Text.dropCarriageReturn line)
      if isComment text then parseLines seen (number + 1) rest
      else match Entry.parse text with
        | .error e => .error (.entry number e)
        | .ok entry => parseLines (entry :: seen) (number + 1) rest

def parse (t : Text) : Except ParseError Catalog := parseLines [] 1 (Text.rawLines t)

def lookup? (c : Catalog) (mnemonic : Text) (operands : List Operand) : Option Entry :=
  c.find? fun entry => entry.form.accepts mnemonic operands

def hasMnemonic (c : Catalog) (mnemonic : Text) : Bool :=
  c.any fun entry => entry.form.hasMnemonic mnemonic

end Catalog

end Asm64
