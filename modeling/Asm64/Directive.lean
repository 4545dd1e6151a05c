import Asm64.Integer
import Asm64.Object.Link
import Asm64.RangeError
import Asm64.Text.Blank

/-!
# Directives

A directive adds data to an object or changes one of its labels. A built-in directive that fails
leaves the object as it was. Callers can add directives of their own, which may do with the
object what they like; the built-in ones cannot be replaced.
-/

namespace Asm64

/-- A directive that a caller supplies: what becomes of the object for the given arguments, and
the reason for a failure. -/
abbrev CustomDirective := Object → Text → Object × Option Text

inductive DirectiveKind where
  | global
  | data
  | utf8
  | align
  | custom
  | unassigned (number : Nat)
deriving DecidableEq, Repr

namespace DirectiveKind

def ofNumber : Nat → DirectiveKind
  | 1 => global
  | 2 => data
  | 3 => utf8
  | 4 => align
  | 5 => custom
  | n => unassigned n

def name : DirectiveKind → Text
  | global => ascii "global"
  | data => ascii "data"
  | utf8 => ascii "utf8"
  | align => ascii "align"
  | custom => ascii "custom"
  | unassigned number => ascii "PseudoKind(" ++ Text.decimal number ++ ascii ")"

end DirectiveKind

inductive Directive.Action where
  /-- `.global name` makes a label public. -/
  | global
  /-- `.db8` to `.db64` add integers. -/
  | data (width : Width)
  /-- `.utf8 "text"` adds a string with a zero byte after it. -/
  | utf8
  /-- `.align16` adds zeros up to a multiple of bytes. -/
  | align (alignment : Nat)
  | custom (run : CustomDirective)
  /-- An action that no directive has. -/
  | unassigned (number : Nat)

structure Directive where
  /-- The name, without the dot. -/
  name : Text
  action : Directive.Action

namespace Directive

def Action.kind : Action → DirectiveKind
  | global => .global
  | data _ => .data
  | utf8 => .utf8
  | align _ => .align
  | custom _ => .custom
  | unassigned number => .unassigned number

/-- The width of the integers that a directive adds, in bits, or zero. -/
def Action.bits : Action → Nat
  | data width => width.bits
  | _ => 0

def Action.alignment : Action → Nat
  | align alignment => alignment
  | _ => 0

inductive StringFlaw where
  | notQuoted (text : Text)
  | unescapedQuote (offset : Nat)
  | incompleteEscape
  | unknownEscape (byte : UInt8)
deriving DecidableEq, Repr

def StringFlaw.message : StringFlaw → Text
  | notQuoted text => ascii "want a double-quoted string, got " ++ Text.quote text
  | unescapedQuote offset => ascii "unescaped quote at offset " ++ Text.decimal offset
  | incompleteEscape => ascii "incomplete escape sequence"
  | unknownEscape byte => ascii "unknown escape sequence \\" ++ Text.encodeScalar byte.toNat

inductive Flaw where
  | invalidLabel (text : Text)
  | undefinedLabel (label : Text)
  | noValues
  | invalidInteger (text : Text)
  | range (error : RangeError)
  | string (flaw : StringFlaw)
  | unexpectedOperands (text : Text)
  | custom (reason : Text)
  | unassigned (number : Nat)
deriving DecidableEq, Repr

structure Error where
  name : Text
  flaw : Flaw
deriving DecidableEq, Repr

def title (name : Text) : Text := 46 :: name

def Error.message (e : Error) : Text :=
  match e.flaw with
  | .invalidLabel text => misuse (ascii ": invalid label " ++ Text.quote text)
  | .undefinedLabel label => title e.name ++ ascii ": undefined label " ++ Text.quote label
  | .noValues => misuse (ascii ": no values")
  | .invalidInteger text => misuse (ascii ": invalid integer " ++ Text.quote text)
  | .range error => error.message
  | .string flaw => misuse (ascii ": " ++ flaw.message)
  | .unexpectedOperands text => misuse (ascii " takes no operands, got " ++ Text.quote text)
  | .custom reason => title e.name ++ ascii ": " ++ reason
  | .unassigned number =>
    title e.name ++ ascii ": invalid pseudo-op kind " ++ (DirectiveKind.unassigned number).name
where
  misuse (rest : Text) : Text := ascii "syntax error: " ++ title e.name ++ rest

def builtin : List (String × Action) :=
  [("global", .global), ("db8", .data .byte), ("db16", .data .word), ("db32", .data .dword),
    ("db64", .data .qword), ("utf8", .utf8), ("align16", .align 16)]

/-- Looks a directive up, first among the built-in ones. -/
def lookup? (custom : List (Text × CustomDirective)) (name : Text) : Option Directive :=
  match builtin.find? fun entry => ascii entry.1 == name with
  | some (_, action) => some ⟨name, action⟩
  | none => (custom.lookup name).map fun run => ⟨name, .custom run⟩

/-- Makes the first label of a name public. -/
def publish (name : Text) : List Label → Option (List Label)
  | [] => none
  | l :: rest =>
    if l.name = name then some ({ l with isPublic := true } :: rest)
    else (publish name rest).map (l :: ·)

def applyGlobal (o : Object) (arguments : Text) : Except Flaw Object :=
  if !Text.isIdentifier arguments then .error (.invalidLabel arguments)
  else match publish arguments o.labels with
    | some labels => .ok { o with labels }
    | none => .error (.undefinedLabel arguments)

def readValue (name : Text) (width : Width) (field : Text) : Except Flaw Integer :=
  match Integer.parse? field with
  | none => .error (.invalidInteger field)
  | some i =>
    if i.fits width then .ok i else .error (.range (.ofWidth (title name) i width false))

def dataBytes (width : Width) (values : List Integer) : List UInt8 :=
  values.flatMap fun i => littleEndian width.bytes i.toUInt64.toNat

def applyData (name : Text) (width : Width) (o : Object) (arguments : Text) :
    Except Flaw Object :=
  match Text.fields arguments with
  | [] => .error .noValues
  | fields => do
    let values ← fields.mapM (readValue name width)
    return { o with code := o.code ++ dataBytes width values }

def escaped? (b : UInt8) : Option UInt8 :=
  match b with
  | 110 => some 10
  | 48 => some 0
  | 114 => some 13
  | 116 => some 9
  | 92 => some 92
  | 34 => some 34
  | _ => none

/-- Reads the inside of a string literal, from `offset` on. `seen` holds in reverse the bytes read
so far. -/
def unescapeFrom (seen : Text) (offset : Nat) : Text → Except StringFlaw Text
  | [] => .ok seen.reverse
  | b :: rest =>
    if b = 34 then .error (.unescapedQuote offset)
    else if b = 92 then
      match rest with
      | [] => .error .incompleteEscape
      | code :: rest =>
        match escaped? code with
        | some byte => unescapeFrom (byte :: seen) (offset + 2) rest
        | none => .error (.unknownEscape code)
    else unescapeFrom (b :: seen) (offset + 1) rest

/-- Reads a string literal, which has the escape sequences `\n`, `\0`, `\r`, `\t`, `\\` and
`\"`. -/
def unquote (t : Text) : Except StringFlaw Text :=
  match t with
  | 34 :: rest =>
    if rest.getLast? = some 34 then unescapeFrom [] 1 rest.dropLast else .error (.notQuoted t)
  | _ => .error (.notQuoted t)

def applyUtf8 (o : Object) (arguments : Text) : Except Flaw Object :=
  match unquote arguments with
  | .ok text => .ok { o with code := o.code ++ text ++ [0] }
  | .error flaw => .error (.string flaw)

def applyAlign (alignment : Nat) (o : Object) (arguments : Text) : Except Flaw Object :=
  if arguments.isEmpty then .ok (o.pad alignment) else .error (.unexpectedOperands arguments)

/-- What an object is after a directive, and what went wrong. -/
structure Outcome where
  object : Object
  error : Option Error
deriving DecidableEq, Repr

/-- The outcome of a directive that changes nothing if it fails. -/
def Outcome.ofExcept (name : Text) (o : Object) : Except Flaw Object → Outcome
  | .ok changed => ⟨changed, none⟩
  | .error flaw => ⟨o, some ⟨name, flaw⟩⟩

/-- Performs a directive. White space around the arguments does not count. -/
def apply (d : Directive) (o : Object) (arguments : Text) : Outcome :=
  let arguments := Text.trim arguments
  match d.action with
  | .global => .ofExcept d.name o (applyGlobal o arguments)
  | .data width => .ofExcept d.name o (applyData d.name width o arguments)
  | .utf8 => .ofExcept d.name o (applyUtf8 o arguments)
  | .align alignment => .ofExcept d.name o (applyAlign alignment o arguments)
  | .custom run =>
    let (changed, reason) := run o arguments
    ⟨changed, reason.map fun reason => ⟨d.name, .custom reason⟩⟩
  | .unassigned number => ⟨o, some ⟨d.name, .unassigned number⟩⟩

end Directive

end Asm64
