import Asm64.Catalog.Default
import Asm64.Catalog.Diagnosis
import Asm64.Directive
import Asm64.Instruction
import Asm64.Listing
import Asm64.Statement

/-!
# The assembler

Statements are assembled one after another into an object. `.global` directives wait until all
labels are known. At the end the object is located as far as its own labels allow; references to
other labels are kept for linking.

After an error the assembler stops, or drops the code of the statement and goes on in order to
report every error, as it is told to.
-/

namespace Asm64

structure Assembler where
  /-- The instruction forms. An empty catalog stands for the standard one. -/
  catalog : Catalog
  customDirectives : List (Text × CustomDirective)
  accumulateErrors : Bool

namespace Assembler

def standard : Assembler := ⟨[], [], false⟩

/-- What is wrong with a statement. -/
inductive Fault where
  | labelRedefined (name : Text) (firstLine : Nat)
  | labelIsRegister (name : Text)
  | unknownDirective (name : Text)
  | directive (error : Directive.Error)
  | operand (error : Operand.ParseError)
  | memory (operand : Text) (fault : Memory.Fault)
  | unknownMnemonic (mnemonic : Text)
  | range (error : RangeError)
  | noForm (mnemonic statement : Text)
  | encode (form : Text) (error : EncodeError)
  | unknownStatement (statement : Text)
deriving DecidableEq, Repr

def Fault.message : Fault → Text
  | labelRedefined name firstLine =>
    ascii "label redefined: " ++ Text.quote name ++ ascii " was first defined on line " ++
      Text.decimal firstLine
  | labelIsRegister name =>
    ascii "syntax error: label " ++ Text.quote name ++ ascii " is a register name"
  | unknownDirective name => ascii "syntax error: unknown pseudo-op ." ++ name
  | directive error => error.message
  | operand error => ascii "syntax error: " ++ error.message
  | memory operandText reason =>
    ascii "syntax error: " ++ Text.quote operandText ++ ascii ": " ++ reason.message
  | unknownMnemonic mnemonic => ascii "unknown instruction " ++ Text.quote mnemonic
  | range error => error.message
  | noForm mnemonic statement =>
    ascii "unknown instruction: no form of " ++ mnemonic ++ ascii " matches " ++
      Text.quote statement
  | encode form error => error.message form
  | unknownStatement statement => ascii "syntax error: " ++ Text.quote statement

structure LineError where
  line : Nat
  fault : Fault
deriving DecidableEq, Repr

def LineError.message (e : LineError) : Text :=
  ascii "line " ++ Text.decimal e.line ++ ascii ": " ++ e.fault.message

inductive Error where
  | line (error : LineError)
  /-- All errors that were found, in the order in which they were found. -/
  | lines (errors : List LineError)
  | locate (error : LocateError)
  /-- The listing could not be written. -/
  | listing (reason : Text)
deriving DecidableEq, Repr

def bulletList (messages : List Text) : Text :=
  (if messages.length = 1 then ascii "1 error occurred:"
   else Text.decimal messages.length ++ ascii " errors occurred:") ++
  messages.flatMap (fun message => ascii "\n\t* " ++ message) ++ ascii "\n\n"

def Error.message : Error → Text
  | line error => error.message
  | lines errors => bulletList (errors.map (·.message))
  | locate error => error.message
  | listing reason => ascii "failed to write listing: " ++ reason

/-- A `.global` directive that waits for the end of the source. -/
structure Deferred where
  line : Nat
  directive : Directive
  arguments : Text

/-- The state between two statements. The lists are in reverse. -/
structure Draft where
  object : Object
  /-- The labels defined so far with the lines they stand on. -/
  definitions : List (Text × Nat)
  globals : List Deferred
  listing : List Listing.Entry
  errors : List LineError

def Draft.empty : Draft := ⟨.empty, [], [], [], []⟩

def readOperand (text : Text) : Except Fault Operand :=
  match Operand.parse text with
  | .error e => .error (.operand e)
  | .ok operand =>
    match operand.value with
    | .memory m =>
      match m.fault? with
      | some fault => .error (.memory text fault)
      | none => .ok operand
    | _ => .ok operand

def encodeInstruction (catalog : Catalog) (statement mnemonic : Text) (operands : List Text) :
    Except Fault Instruction := do
  let operands ← operands.mapM readOperand
  match catalog.lookup? mnemonic operands with
  | some entry => (entry.form.encode operands).mapError (.encode entry.text)
  | none =>
    match catalog.diagnose mnemonic operands with
    | .unknownMnemonic => .error (.unknownMnemonic mnemonic)
    | .range error => .error (.range error)
    | .noForm => .error (.noForm mnemonic statement)

/-- The relocation for a reference in an instruction at offset `base`. -/
def relocation (base : Nat) (r : Reference) : Relocation :=
  ⟨r.label, (base + r.offset : Nat), r.size, (base + r.relativeTo : Nat), false⟩

def appendInstruction (o : Object) (i : Instruction) : Object :=
  { o with
    code := o.code ++ i.code.bytes
    relocations := o.relocations ++ i.references.map (relocation o.code.length) }

def addLabel (line : Nat) (name : Text) (d : Draft) : Except Fault Draft :=
  match d.definitions.lookup name with
  | some firstLine => .error (.labelRedefined name firstLine)
  | none =>
    if Register.isName name then .error (.labelIsRegister name)
    else .ok { d with
      definitions := (name, line) :: d.definitions
      object := { d.object with
        labels := d.object.labels ++ [⟨name, d.object.code.length, false⟩] } }

/-- The draft after a statement, and what went wrong. -/
structure Step where
  draft : Draft
  fault : Option Fault

/-- A step that changes nothing if it fails. -/
def Step.ofExcept (d : Draft) : Except Fault Draft → Step
  | .ok changed => ⟨changed, none⟩
  | .error fault => ⟨d, some fault⟩

def performDirective (a : Assembler) (line : Nat) (name arguments : Text) (d : Draft) : Step :=
  match Directive.lookup? a.customDirectives name with
  | none => ⟨d, some (.unknownDirective name)⟩
  | some directive =>
    match directive.action with
    | .global => ⟨{ d with globals := ⟨line, directive, arguments⟩ :: d.globals }, none⟩
    | _ =>
      let outcome := directive.apply d.object arguments
      ⟨{ d with object := outcome.object }, outcome.error.map .directive⟩

def perform (a : Assembler) (catalog : Catalog) (line : Nat) (s : Statement) (d : Draft) : Step :=
  match s.content with
  | .blank => ⟨d, none⟩
  | .label name => .ofExcept d (addLabel line name d)
  | .directive name arguments => a.performDirective line name arguments d
  | .instruction mnemonic operands =>
    .ofExcept d ((encodeInstruction catalog s.text mnemonic operands).map fun i =>
      { d with object := appendInstruction d.object i })
  | .unknown => ⟨d, some (.unknownStatement s.text)⟩

def report (a : Assembler) (e : LineError) (d : Draft) : Except LineError Draft :=
  if a.accumulateErrors then .ok { d with errors := e :: d.errors } else .error e

def Draft.truncate (d : Draft) (length : Nat) : Draft :=
  { d with object := { d.object with code := d.object.code.take length } }

/-- Lists a statement that has produced code since `start`. -/
def Draft.list (d : Draft) (start : Nat) (text : Text) : Draft :=
  if start < d.object.code.length then
    { d with listing := ⟨text, start, d.object.code.length⟩ :: d.listing }
  else d

def step (a : Assembler) (catalog : Catalog) (d : Draft) (numbered : Nat × Statement) :
    Except LineError Draft :=
  let start := d.object.code.length
  let after := a.perform catalog numbered.1 numbered.2 d
  match after.fault with
  | none => .ok (after.draft.list start numbered.2.text)
  | some fault =>
    (a.report ⟨numbered.1, fault⟩ after.draft).map fun d => d.truncate start

def finishGlobal (a : Assembler) (d : Draft) (deferred : Deferred) : Except LineError Draft :=
  let outcome := deferred.directive.apply d.object deferred.arguments
  match outcome.error with
  | none => .ok { d with object := outcome.object }
  | some error => a.report ⟨deferred.line, .directive error⟩ d

def run (a : Assembler) (statements : List (Nat × Statement)) : Except LineError Draft := do
  let catalog := if a.catalog.isEmpty then Catalog.standard else a.catalog
  let d ← statements.foldlM (a.step catalog) .empty
  d.globals.reverse.foldlM a.finishGlobal d

/-- An object with the listing of its source. -/
structure Assembly where
  object : Object
  listing : Text
deriving DecidableEq, Repr

def assembleStatements (a : Assembler) (statements : List (Nat × Statement)) :
    Except Error Assembly := do
  let d ← (a.run statements).mapError .line
  if !d.errors.isEmpty then .error (.lines d.errors.reverse)
  let object ← d.object.locatePartially.mapError .locate
  return ⟨object, Listing.render object.code d.listing.reverse⟩

def assemble (a : Assembler) (source : Text) : Except Error Assembly :=
  a.assembleStatements (Statement.ofSource source)

end Assembler

end Asm64
