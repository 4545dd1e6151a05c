import Asm64.Proofs.Assembler.Consistency
import Asm64.Proofs.Memory.Parts
import Asm64.Proofs.Object.Fields
import Asm64.Proofs.ObjectFile.ReadBack
import Asm64.Proofs.Statement.Lines

/-!
# Assembled objects can be read back

The reader of object files wants identifiers for names, which the writer does not look at, and
fields that lie in the code, which the writer checks up to overflow only.  What a source assembles
to satisfies both.  A label is named in a label statement and a relocation in an operand, where
nothing but an identifier is read as a name.  Directives of callers are asked to keep it that way;
without such directives there is nothing to ask for.
-/

namespace Asm64

/-! ### Operands -/

/-- The label of a displacement, if it has one, is an identifier. -/
def Displacement.Named (displacement : Displacement) : Prop :=
  ∀ name, displacement.label? = some name → Text.isIdentifier name = true

def OperandValue.label? : OperandValue → Option Text
  | memory m => m.displacement.label?
  | label name => some name
  | register _ => none
  | integer _ => none

def OperandValue.Named (value : OperandValue) : Prop :=
  ∀ name, value.label? = some name → Text.isIdentifier name = true

namespace Memory

theorem named_of_parse {text : Text} {m : Memory} (parsed : parse text = .ok m) :
    m.displacement.Named := by
  intro name labelled
  have written := (written_of_parse parsed).displacement
  cases displacement : m.displacement with
  | constant value => simp [displacement, Displacement.label?] at labelled
  | label other =>
      rw [displacement] at labelled written
      cases labelled
      exact written.1

end Memory

theorem Operand.named_of_parseValue {text : Text} {value : OperandValue}
    (parsed : parseValue text = .ok value) : value.Named := by
  intro name labelled
  unfold parseValue at parsed
  split at parsed
  · cases parsed
    cases labelled
  · split at parsed
    · split at parsed <;> cases parsed
      rename_i m parsedMemory
      exact Memory.named_of_parse parsedMemory name labelled
    · split at parsed
      · cases parsed
        cases labelled
      · split at parsed <;> cases parsed
        rename_i identifier
        cases labelled
        exact identifier

/-! ### Instructions -/

namespace Form

/-- The labels that fields wait for are identifiers. -/
structure Draft.Named (d : Draft) : Prop where
  displacement : ∀ name, d.displacementLabel = some name → Text.isIdentifier name = true
  value : ∀ name, d.valueLabel = some name → Text.isIdentifier name = true

theorem Placement.named {f : Form} {type : OperandType} {value : OperandValue} {d next : Draft}
    (placement : Placement f type value d next) (labelled : value.Named) (named : d.Named) :
    next.Named := by
  cases placement with
  | fixed => exact named
  | opcodeRegister | regField | rmRegister | integer => exact ⟨named.displacement, named.value⟩
  | memory => exact ⟨labelled, named.value⟩
  | label => exact ⟨named.displacement, labelled⟩

theorem encode_references_named {f : Form} {operands : List Operand} {i : Instruction}
    (labelled : ∀ operand ∈ operands, operand.value.Named)
    (encoded : f.encode operands = .ok i) :
    ∀ r ∈ i.references, Text.isIdentifier r.label = true := by
  obtain ⟨code, placed, finished, final, -, -, operandsPlaced, modRM, rex, rfl⟩ :=
    encode_stages encoded
  have initial : (Draft.ofCode code).Named := ⟨by simp [Draft.ofCode], by simp [Draft.ofCode]⟩
  have named : placed.Named :=
    placeOperands_preserves (fun operand member _ _ _ placement =>
      placement.named (labelled operand member)) operandsPlaced initial
  have same := sameFields_of_finish modRM rex
  intro r member
  simp only [Draft.references, same.displacementLabel, same.valueLabel, List.mem_append,
    Option.mem_toList, Option.map_eq_some_iff] at member
  rcases member with ⟨name, waits, rfl⟩ | ⟨name, waits, rfl⟩
  · exact named.displacement name waits
  · exact named.value name waits

end Form

namespace Assembler

theorem named_of_readOperand {text : Text} {operand : Operand}
    (read : readOperand text = .ok operand) : operand.value.Named := by
  have parsed := toOption_eq_some_iff.mp (readOperand_eq_ok read)
  unfold Operand.parse at parsed
  split at parsed <;> cases parsed
  rename_i value parsedValue
  exact Operand.named_of_parseValue parsedValue

theorem named_of_encodeInstruction {catalog : Catalog} {statement mnemonic : Text}
    {texts : List Text} {i : Instruction}
    (encoded : encodeInstruction catalog statement mnemonic texts = .ok i) :
    ∀ r ∈ i.references, Text.isIdentifier r.label = true ∧ r.InBounds i.code.bytes.length := by
  obtain ⟨operands, entry, read, -, encoded⟩ := exists_entry_of_encodeInstruction encoded
  have named : ∀ operand ∈ operands, operand.value.Named := by
    intro operand member
    obtain ⟨text, readHere⟩ := exists_of_forall₂ (mapM_eq_ok_iff.mp read).flip member
    exact named_of_readOperand readHere
  intro r member
  exact ⟨Form.encode_references_named named encoded r member,
    Form.encode_references_inBounds encoded r member⟩

end Assembler

/-! ### Statements -/

namespace Statement

/-- The label that the statement defines, if it defines one, is an identifier. -/
def Named (s : Statement) : Prop :=
  ∀ name, s.content = .label name → Text.isIdentifier name = true

theorem isIdentifier_of_labelName? {t name : Text} (found : labelName? t = some name) :
    Text.isIdentifier name = true := by
  unfold labelName? at found
  split at found
  · split at found <;> cases found
    assumption
  · cases found

theorem named_parseTrimmed (t : Text) : (parseTrimmed t).Named := by
  intro name content
  unfold parseTrimmed at content
  split at content
  · cases content
  · simp only [directiveContent] at content
    split at content <;> cases content
  · split at content
    · rename_i found
      cases content
      exact isIdentifier_of_labelName? found
    · simp only [instructionContent] at content
      split at content <;> cases content

theorem named_of_mem_ofSource {source : Text} :
    ∀ numbered ∈ ofSource source, numbered.2.Named := by
  intro numbered member
  obtain ⟨t, -, parsed⟩ := exists_parse_of_mem_ofSource numbered member
  rw [parsed]
  exact named_parseTrimmed _

end Statement

/-! ### Objects -/

theorem Directive.names_of_publish {name : Text} {labels published : List Label}
    (found : publish name labels = some published) :
    published.map (·.name) = labels.map (·.name) := by
  induction labels generalizing published with
  | nil => cases found
  | cons l rest inductionHypothesis =>
      unfold publish at found
      split at found
      · cases found
        rfl
      · obtain ⟨publishedRest, foundRest, rfl⟩ := Option.map_eq_some_iff.mp found
        rw [List.map_cons, List.map_cons, inductionHypothesis foundRest]

theorem Directive.builtin_or_custom_of_lookup? {custom : List (Text × CustomDirective)}
    {name : Text} {directive : Directive} (known : lookup? custom name = some directive) :
    lookup? [] name = some directive ∨
      ∃ run, (name, run) ∈ custom ∧ directive = ⟨name, .custom run⟩ := by
  unfold lookup? at known ⊢
  cases found : builtin.find? (fun entry => ascii entry.1 == name) with
  | some entry =>
      rw [found] at known
      exact .inl known
  | none =>
      rw [found] at known
      obtain ⟨run, supplied, rfl⟩ := Option.map_eq_some_iff.mp known
      obtain ⟨earlier, later, rfl, -⟩ := List.lookup_eq_some_iff.mp supplied
      exact .inr ⟨run, by simp, rfl⟩

namespace Object.Readable

variable {o : Object} (readable : o.Readable)

include readable

theorem append_code (bytes : List UInt8) : { o with code := o.code ++ bytes }.Readable where
  labels := readable.labels
  relocations := by
    intro r member
    obtain ⟨named, inCode⟩ := readable.relocations r member
    refine ⟨named, ?_⟩
    rw [List.length_append]
    omega

theorem publish {name : Text} {labels : List Label}
    (published : Directive.publish name o.labels = some labels) : { o with labels }.Readable where
  labels := by
    have names := Directive.names_of_publish published
    intro l member
    obtain ⟨other, isLabel, same⟩ := List.mem_map.mp (names ▸ List.mem_map_of_mem member)
    rw [← same]
    exact readable.labels other isLabel
  relocations := readable.relocations

theorem appendInstruction {i : Instruction}
    (named : ∀ r ∈ i.references,
      Text.isIdentifier r.label = true ∧ r.InBounds i.code.bytes.length) :
    (Assembler.appendInstruction o i).Readable where
  labels := readable.labels
  relocations := by
    have extended := readable.append_code i.code.bytes
    intro r member
    rcases List.mem_append.mp member with old | new
    · exact extended.relocations r old
    · obtain ⟨reference, inInstruction, rfl⟩ := List.mem_map.mp new
      obtain ⟨identifier, bounds⟩ := named reference inInstruction
      have field := bounds.field
      refine ⟨identifier, ?_⟩
      simp only [Assembler.relocation, Assembler.appendInstruction, List.length_append]
      omega

theorem addLabel {l : Label} (identifier : Text.isIdentifier l.name = true) :
    { o with labels := o.labels ++ [l] }.Readable where
  labels := by
    rw [List.forall_mem_append, List.forall_mem_singleton]
    exact ⟨readable.labels, identifier⟩
  relocations := readable.relocations

theorem written : o.written.Readable where
  labels := readable.labels
  relocations := by
    intro s member
    obtain ⟨r, isRelocation, remains⟩ := Object.mem_written_relocations.mp member
    obtain ⟨label, offset, size, -⟩ := Object.sameField_of_remainder remains
    rw [Object.length_written_code, label, offset, size]
    exact readable.relocations r isRelocation

end Object.Readable

/-! ### Sources -/

/-- The directive, when it succeeds, leaves an object that can be read back. -/
def CustomDirective.KeepsReadable (run : CustomDirective) : Prop :=
  ∀ o arguments, o.Readable → (run o arguments).2 = none → (run o arguments).1.Readable

namespace Assembler

def KeepsReadable (a : Assembler) : Prop :=
  ∀ entry ∈ a.customDirectives, CustomDirective.KeepsReadable entry.2

theorem keepsReadable_of_builtinOnly {a : Assembler} (builtinOnly : a.customDirectives = []) :
    a.KeepsReadable := by
  simp [KeepsReadable, builtinOnly]

/-- Whatever has been assembled can be read back, and only `.global` directives wait. -/
structure Draft.Readable (d : Draft) : Prop where
  object : d.object.Readable
  waiting : ∀ deferred ∈ d.globals, deferred.directive.action = .global

variable {a : Assembler} {catalog : Catalog} {d : Draft}

theorem readable_of_apply (keeps : a.KeepsReadable) {name arguments : Text}
    {directive : Directive} {o : Object}
    (known : Directive.lookup? a.customDirectives name = some directive)
    (adds : directive.action ≠ .global)
    (succeeded : (directive.apply o arguments).error = none) (readable : o.Readable) :
    (directive.apply o arguments).object.Readable := by
  rcases Directive.builtin_or_custom_of_lookup? known with builtin | ⟨run, member, rfl⟩
  · obtain ⟨bytes, -, appended⟩ := apply_eq_append builtin adds succeeded
    rw [appended]
    exact readable.append_code bytes
  · exact keeps _ member o _ readable (Option.map_eq_none_iff.mp succeeded)

theorem perform_readable (keeps : a.KeepsReadable) {line : Nat} {s : Statement} (named : s.Named)
    (performed : (a.perform catalog line s d).fault = none) (readable : d.Readable) :
    (a.perform catalog line s d).draft.Readable where
  waiting := perform_waiting readable.waiting line s
  object := by
    unfold perform at performed ⊢
    cases content : s.content with
    | blank => exact readable.object
    | label name =>
        simp only [content] at performed ⊢
        cases added : addLabel line name d with
        | error fault => simp [added, Step.ofExcept] at performed
        | ok next =>
            unfold addLabel at added
            split at added
            · cases added
            · split at added <;> cases added
              exact readable.object.addLabel (named name content)
    | directive name arguments =>
        simp only [content] at performed ⊢
        cases known : Directive.lookup? a.customDirectives name with
        | none => simp [performDirective, known] at performed
        | some directive =>
            by_cases global : directive.action = .global
            · rw [performDirective_of_global known global]
              exact readable.object
            · rw [performDirective_of_not_global known global] at performed ⊢
              exact readable_of_apply keeps known global (Option.map_eq_none_iff.mp performed)
                readable.object
    | instruction mnemonic texts =>
        simp only [content] at performed ⊢
        cases encoded : encodeInstruction catalog s.text mnemonic texts with
        | error fault => simp [encoded, Except.map, Step.ofExcept] at performed
        | ok i => exact readable.object.appendInstruction (named_of_encodeInstruction encoded)
    | unknown => simp [content] at performed

theorem Draft.Readable.list (readable : d.Readable) (start : Nat) (text : Text) :
    (d.list start text).Readable := by
  unfold Draft.list
  split
  · exact ⟨readable.object, readable.waiting⟩
  · exact readable

theorem foldlM_step_readable (keeps : a.KeepsReadable) {statements : List (Nat × Statement)}
    {final : Draft} (named : ∀ numbered ∈ statements, numbered.2.Named)
    (ran : statements.foldlM (a.step catalog) d = .ok final) (clean : final.errors = [])
    (readable : d.Readable) : final.Readable := by
  induction statements generalizing d with
  | nil =>
      rw [List.foldlM_nil, pure_eq_ok_iff] at ran
      exact ran ▸ readable
  | cons numbered rest inductionHypothesis =>
      rw [List.forall_mem_cons] at named
      rw [List.foldlM_cons, bind_eq_ok_iff] at ran
      obtain ⟨next, stepped, ran⟩ := ran
      obtain ⟨-, performed, rfl⟩ := step_of_clean stepped (foldlM_step_of_clean ran clean)
      exact inductionHypothesis named.2 ran
        ((perform_readable keeps named.1 performed readable).list _ _)

theorem foldlM_finishGlobal_readable {deferred : List Deferred} {final : Draft}
    (global : ∀ waiting ∈ deferred, waiting.directive.action = .global)
    (ran : deferred.foldlM a.finishGlobal d = .ok final) (clean : final.errors = [])
    (readable : d.object.Readable) : final.object.Readable := by
  induction deferred generalizing d with
  | nil =>
      rw [List.foldlM_nil, pure_eq_ok_iff] at ran
      exact ran ▸ readable
  | cons waiting rest inductionHypothesis =>
      rw [List.forall_mem_cons] at global
      rw [List.foldlM_cons, bind_eq_ok_iff] at ran
      obtain ⟨next, finished, ran⟩ := ran
      obtain ⟨labels, published, rfl⟩ :=
        finishGlobal_of_clean global.1 finished (foldlM_finishGlobal_errors ran clean)
      exact inductionHypothesis global.2 ran (readable.publish published)

theorem readable_of_assemble (keeps : a.KeepsReadable) {source : Text} {assembly : Assembly}
    (assembled : a.assemble source = .ok assembly) : assembly.object.Readable := by
  obtain ⟨d, ran, clean, -, written, -⟩ := exists_draft_of_assembleStatements assembled
  simp only [run, bind_eq_ok_iff] at ran
  obtain ⟨drafted, stepped, finished⟩ := ran
  have empty : Draft.empty.Readable :=
    ⟨⟨by simp [Draft.empty, Object.empty], by simp [Draft.empty, Object.empty]⟩,
      by simp [Draft.empty]⟩
  have readable := foldlM_step_readable keeps Statement.named_of_mem_ofSource stepped
    (foldlM_finishGlobal_errors finished clean) empty
  have global : ∀ waiting ∈ drafted.globals.reverse, waiting.directive.action = .global :=
    fun waiting member => readable.waiting waiting (List.mem_reverse.mp member)
  rw [written]
  exact (foldlM_finishGlobal_readable global finished clean readable.object).written

end Assembler

end Asm64
