import Asm64.Text.Blank
import Asm64.Text.Lines

/-!
# Statements

A source line holds at most one directive or instruction, after any number of labels. Comments
start with `//` outside a string literal. Each label and the directive or instruction is a
statement of its own. Statements are told apart by their text alone: names are not looked up
here.
-/

namespace Asm64

inductive StatementKind where
  | blank
  | label
  | directive
  | instruction
  | unknown
deriving DecidableEq, Repr

namespace StatementKind

def all : List StatementKind := [blank, label, directive, instruction, unknown]

def name : StatementKind → Text
  | blank => ascii "none"
  | label => ascii "label"
  | directive => ascii "pseudo-op"
  | instruction => ascii "instruction"
  | unknown => ascii "unknown"

end StatementKind

inductive Statement.Content where
  | blank
  /-- A label, written `name:`. -/
  | label (name : Text)
  /-- A directive, written `.name arguments`. -/
  | directive (name arguments : Text)
  /-- An instruction, written `mnemonic operand, operand`. -/
  | instruction (mnemonic : Text) (operands : List Text)
  | unknown
deriving DecidableEq, Repr

structure Statement where
  /-- The statement as it was written, without white space around it. -/
  text : Text
  content : Statement.Content
deriving DecidableEq, Repr

namespace Statement

def Content.kind : Content → StatementKind
  | blank => .blank
  | label _ => .label
  | directive _ _ => .directive
  | instruction _ _ => .instruction
  | unknown => .unknown

def splitWord (t : Text) : Text × Text := (t.takeWhile isInWord, t.dropWhile isInWord)
where
  isInWord (b : UInt8) : Bool := b != 32 && b != 9

/-- The bracket depth after a byte. Closing brackets without an opening one count below zero. -/
def depthAfter (depth : Int) (b : UInt8) : Int :=
  if b = 91 then depth + 1 else if b = 93 then depth - 1 else depth

/-- Splits at the commas outside brackets. `done` and `current` hold, in reverse, the operands
found so far and the operand being read. -/
def splitOperandsFrom (done : List Text) (current : Text) (depth : Int) : Text → List Text
  | [] => (Text.trim current.reverse :: done).reverse
  | b :: rest =>
    if b = 44 ∧ depth = 0 then splitOperandsFrom (Text.trim current.reverse :: done) [] depth rest
    else splitOperandsFrom done (b :: current) (depthAfter depth b) rest

def splitOperands (t : Text) : List Text :=
  if t.isEmpty then [] else splitOperandsFrom [] [] 0 t

def directiveContent (t : Text) : Content :=
  let (name, rest) := splitWord t
  if Text.isIdentifier name then .directive name (Text.trim rest) else .unknown

def instructionContent (t : Text) : Content :=
  let (mnemonic, rest) := splitWord t
  if Text.isIdentifier mnemonic then .instruction mnemonic (splitOperands (Text.trim rest))
  else .unknown

/-- The name in front of the first colon, if it can be a label. -/
def labelName? (t : Text) : Option Text :=
  match Text.cut 58 t with
  | some (name, _) => if Text.isIdentifier name then some name else none
  | none => none

/-- Reads a statement that has no white space around it. -/
def parseTrimmed (t : Text) : Statement :=
  match t with
  | [] => ⟨[], .blank⟩
  | 46 :: rest => ⟨t, directiveContent rest⟩
  | _ =>
    match labelName? t with
    | some name => ⟨name ++ [58], .label name⟩
    | none => ⟨t, instructionContent t⟩

/-- Reads the first statement of a text without comments. What follows a label is left out. -/
def parse (t : Text) : Statement := parseTrimmed (Text.trim t)

/-- Drops the comment of a line. `seen` holds the bytes passed so far in reverse. A backslash in
a string literal keeps the byte after it from ending the literal. -/
def stripCommentFrom (seen : Text) (inString : Bool) : Text → Text
  | [] => seen.reverse
  | b :: rest =>
    if inString ∧ b = 92 then
      match rest with
      | [] => (b :: seen).reverse
      | escaped :: rest => stripCommentFrom (escaped :: b :: seen) true rest
    else if b = 34 then stripCommentFrom (b :: seen) (!inString) rest
    else if !inString ∧ b = 47 ∧ rest.head? = some 47 then seen.reverse
    else stripCommentFrom (b :: seen) inString rest

def stripComment (line : Text) : Text := stripCommentFrom [] false line

/-- The statements of a line without comments: labels, then what follows the last of them. -/
def ofLine (line : Text) : List Statement :=
  match (parse line).content with
  | .label _ =>
    match _ : Text.cut 58 line with
    | some (_, rest) =>
      if (Text.trim rest).isEmpty then [parse line] else parse line :: ofLine rest
    | none => [parse line]
  | _ => [parse line]
termination_by line.length
decreasing_by exact Text.length_lt_of_cut (by assumption)

/-- The statements of a source text with the numbers of their lines, from one. -/
def ofSource (source : Text) : List (Nat × Statement) :=
  ((Text.lines source).zipIdx 1).flatMap fun (line, number) =>
    (ofLine (stripComment line)).map fun statement => (number, statement)

end Statement

end Asm64
