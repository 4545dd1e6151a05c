import Mathlib.Tactic
import Asm64.Assembler
import Asm64.Proofs.Instruction.References
import Asm64.Proofs.Object.Locate

/-!
# Layouts

The direct reading of a source in two passes.  The first pass gives each statement its chunk of
the code and the offset at which it stands; only `.align16` looks at the offset.  Labels and
references are then read off the layout: a label stands for the offset of its statement, and a
reference is a field of the chunk it comes from.
-/

namespace Asm64

/-- What a statement adds to the code: bytes, and the fields in them that wait for a label. -/
structure Chunk where
  bytes : List UInt8
  references : List Reference
deriving DecidableEq, Repr

namespace Chunk

/-- The integers of a data directive, if there are any and all of them fit. -/
def dataValues? (width : Width) (arguments : Text) : Option (List Integer) :=
  match Text.fields arguments with
  | [] => none
  | fields => fields.mapM fun field => (Integer.parse? field).filter fun i => i.fits width

def directiveBytes? (offset : Nat) (arguments : Text) :
    Directive.Action → Option (List UInt8)
  | .global => some []
  | .data width =>
    (dataValues? width arguments).map fun values =>
      values.flatMap fun i => littleEndian width.bytes i.toUInt64.toNat
  | .utf8 => (Directive.unquote arguments).toOption.map fun text => text ++ [0]
  | .align alignment =>
    if arguments = [] then some (List.replicate (paddingFor alignment offset) 0) else none
  | .custom _ => none
  | .unassigned _ => none

/-- The chunk of a statement after `offset` bytes of code. -/
def ofContent? (catalog : Catalog) (offset : Nat) : Statement.Content → Option Chunk
  | .blank => some ⟨[], []⟩
  | .label _ => some ⟨[], []⟩
  | .directive name arguments => do
    let directive ← Directive.lookup? [] name
    let bytes ← directiveBytes? offset (Text.trim arguments) directive.action
    return ⟨bytes, []⟩
  | .instruction mnemonic texts => do
    let operands ← texts.mapM fun text => (Operand.parse text).toOption
    let entry ← catalog.lookup? mnemonic operands
    let i ← (entry.form.encode operands).toOption
    return ⟨i.code.bytes, i.references⟩
  | .unknown => none

end Chunk

/-- A statement with its chunk and the offset of the chunk. -/
structure Placed where
  statement : Statement
  offset : Nat
  chunk : Chunk
deriving DecidableEq, Repr

/-- The statements of a source in their order. -/
abbrev Layout := List Placed

namespace Layout

/-- The first pass, after `offset` bytes of code. -/
def ofStatements? (catalog : Catalog) (offset : Nat) : List Statement → Option Layout
  | [] => some []
  | statement :: rest => do
    let chunk ← Chunk.ofContent? catalog offset statement.content
    let later ← ofStatements? catalog (offset + chunk.bytes.length) rest
    return ⟨statement, offset, chunk⟩ :: later

def code (layout : Layout) : List UInt8 := layout.flatMap fun p => p.chunk.bytes

def globalName? : Statement.Content → Option Text
  | .directive name arguments =>
    if name = ascii "global" then some (Text.trim arguments) else none
  | _ => none

def globalNames (layout : Layout) : List Text :=
  layout.filterMap fun p => globalName? p.statement.content

/-- The label that a statement defines.  The names are those that are public. -/
def label? (publicNames : List Text) (p : Placed) : Option Label :=
  match p.statement.content with
  | .label name => some ⟨name, p.offset, publicNames.contains name⟩
  | _ => none

def labelsWith (publicNames : List Text) (layout : Layout) : List Label :=
  layout.filterMap (label? publicNames)

def labels (layout : Layout) : List Label := labelsWith layout.globalNames layout

/-- The references of all statements, as fields of the whole code. -/
def references (layout : Layout) : List Relocation :=
  layout.flatMap fun p => p.chunk.references.map (Assembler.relocation p.offset)

/-- What the listing shows of a statement that has any bytes. -/
def entry? (p : Placed) : Option Listing.Entry :=
  if p.chunk.bytes = [] then none
  else some ⟨p.statement.text, p.offset, p.offset + p.chunk.bytes.length⟩

def entries (layout : Layout) : List Listing.Entry := layout.filterMap entry?

/-- The object before any reference is resolved. -/
def object (layout : Layout) : Object := ⟨layout.code, layout.labels, layout.references⟩

@[simp]
theorem code_append (front back : Layout) : (front ++ back).code = front.code ++ back.code :=
  List.flatMap_append

@[simp]
theorem references_append (front back : Layout) :
    (front ++ back).references = front.references ++ back.references :=
  List.flatMap_append

@[simp]
theorem globalNames_append (front back : Layout) :
    (front ++ back).globalNames = front.globalNames ++ back.globalNames :=
  List.filterMap_append

@[simp]
theorem labelsWith_append (publicNames : List Text) (front back : Layout) :
    labelsWith publicNames (front ++ back) =
      labelsWith publicNames front ++ labelsWith publicNames back :=
  List.filterMap_append

theorem labelsWith_eq_map (publicNames : List Text) (layout : Layout) :
    labelsWith publicNames layout =
      (labelsWith [] layout).map fun l => { l with isPublic := publicNames.contains l.name } := by
  rw [labelsWith, labelsWith, List.map_filterMap]
  congr 1
  funext p
  unfold label?
  split <;> rfl

/-- Each statement stands where the chunk before it ends, and has the chunk of that offset. -/
inductive Consecutive (catalog : Catalog) : Nat → Layout → Prop where
  | nil {offset : Nat} : Consecutive catalog offset []
  | cons {offset : Nat} {statement : Statement} {chunk : Chunk} {rest : Layout} :
      Chunk.ofContent? catalog offset statement.content = some chunk →
      Consecutive catalog (offset + chunk.bytes.length) rest →
      Consecutive catalog offset (⟨statement, offset, chunk⟩ :: rest)

variable {catalog : Catalog} {offset : Nat} {layout : Layout}

theorem ofStatements?_eq_some_iff {statements : List Statement} :
    ofStatements? catalog offset statements = some layout ↔
      Consecutive catalog offset layout ∧ layout.map (·.statement) = statements := by
  induction statements generalizing offset layout with
  | nil =>
      constructor
      · rintro ⟨⟩
        exact ⟨.nil, rfl⟩
      · rintro ⟨-, empty⟩
        rw [List.map_eq_nil_iff.mp empty]
        rfl
  | cons statement rest inductionHypothesis =>
      simp only [ofStatements?, Option.bind_eq_bind, Option.bind_eq_some_iff, Option.pure_def,
        Option.some.injEq, inductionHypothesis]
      constructor
      · rintro ⟨chunk, placed, later, ⟨consecutive, rfl⟩, rfl⟩
        exact ⟨.cons placed consecutive, rfl⟩
      · rintro ⟨consecutive, mapped⟩
        cases consecutive with
        | nil => simp at mapped
        | cons placed consecutive =>
            rw [List.map_cons, List.cons.injEq] at mapped
            obtain ⟨rfl, rfl⟩ := mapped
            exact ⟨_, placed, _, ⟨consecutive, rfl⟩, rfl⟩

theorem Consecutive.placed (consecutive : Consecutive catalog offset layout)
    {before after : Layout} {p : Placed} (split : layout = before ++ p :: after) :
    p.offset = offset + before.code.length ∧
      Chunk.ofContent? catalog p.offset p.statement.content = some p.chunk := by
  induction consecutive generalizing before with
  | nil => simp at split
  | @cons offset statement chunk rest placed _ inductionHypothesis =>
      cases before with
      | nil =>
          rw [List.nil_append, List.cons.injEq] at split
          obtain ⟨rfl, -⟩ := split
          exact ⟨rfl, placed⟩
      | cons first before =>
          rw [List.cons_append, List.cons.injEq] at split
          obtain ⟨rfl, split⟩ := split
          obtain ⟨reached, content⟩ := inductionHypothesis split
          refine ⟨?_, content⟩
          rw [reached]
          simp [code, Nat.add_assoc]

end Layout

theorem Chunk.references_of_ofContent? {catalog : Catalog} {offset : Nat}
    {content : Statement.Content} {chunk : Chunk}
    (placed : Chunk.ofContent? catalog offset content = some chunk) :
    (∀ r ∈ chunk.references, r.InBounds chunk.bytes.length) ∧
      chunk.references.Pairwise fun r s => r.offset + r.size ≤ s.offset := by
  cases content with
  | blank | label name =>
      cases placed
      exact ⟨by simp, .nil⟩
  | unknown => cases placed
  | directive name arguments =>
      simp only [Chunk.ofContent?, Option.bind_eq_bind, Option.bind_eq_some_iff, Option.pure_def,
        Option.some.injEq] at placed
      obtain ⟨directive, known, bytes, added, rfl⟩ := placed
      exact ⟨by simp, .nil⟩
  | instruction mnemonic texts =>
      simp only [Chunk.ofContent?, Option.bind_eq_bind, Option.bind_eq_some_iff, Option.pure_def,
        Option.some.injEq] at placed
      obtain ⟨operands, parsed, entry, found, i, encoded, rfl⟩ := placed
      have succeeded := toOption_eq_some_iff.mp encoded
      exact ⟨Form.encode_references_inBounds succeeded, Form.encode_references_ordered succeeded⟩

namespace Layout

variable {catalog : Catalog} {offset : Nat} {layout : Layout}

theorem relocation_inBounds {r : Reference} {length total : Nat} (bounds : r.InBounds length)
    (fits : offset + length ≤ total) : (Assembler.relocation offset r).InBounds total where
  size := by
    have size := bounds.size
    simp only [Assembler.relocation]
    omega
  offset := by simp only [Assembler.relocation]; omega
  field := by
    have field := bounds.field
    have relativeTo := bounds.relativeTo
    simp only [Assembler.relocation]
    omega
  relativeTo := by
    have relativeTo := bounds.relativeTo
    simp only [Assembler.relocation]
    omega

theorem references_cons (p : Placed) (rest : Layout) :
    references (p :: rest) =
      p.chunk.references.map (Assembler.relocation p.offset) ++ references rest := rfl

theorem code_cons (p : Placed) (rest : Layout) :
    code (p :: rest) = p.chunk.bytes ++ code rest := rfl

theorem Consecutive.references_inBounds (consecutive : Consecutive catalog offset layout) :
    ∀ r ∈ layout.references, offset ≤ r.offset ∧ r.InBounds (offset + layout.code.length) := by
  induction consecutive with
  | nil => simp [references]
  | @cons offset statement chunk rest placed _ inductionHypothesis =>
      have inside := (Chunk.references_of_ofContent? placed).1
      intro r member
      rw [references_cons, List.mem_append, List.mem_map] at member
      rw [code_cons, List.length_append]
      rcases member with ⟨reference, inChunk, rfl⟩ | inRest
      · exact ⟨by simp only [Assembler.relocation]; omega,
          relocation_inBounds (inside reference inChunk) (by simp only; omega)⟩
      · obtain ⟨reached, bounds⟩ := inductionHypothesis r inRest
        refine ⟨by omega, ?_⟩
        rw [← Nat.add_assoc]
        exact bounds

theorem Consecutive.references_ordered (consecutive : Consecutive catalog offset layout) :
    layout.references.Pairwise fun r s => r.offset + r.size ≤ s.offset := by
  induction consecutive with
  | nil => exact .nil
  | @cons offset statement chunk rest placed consecutive inductionHypothesis =>
      obtain ⟨inside, ordered⟩ := Chunk.references_of_ofContent? placed
      rw [references_cons, List.pairwise_append, List.pairwise_map]
      refine ⟨?_, inductionHypothesis, ?_⟩
      · apply ordered.imp
        intro r s before
        simp only [Assembler.relocation]
        omega
      · intro r mapped s inRest
        obtain ⟨reference, inChunk, rfl⟩ := List.mem_map.mp mapped
        have field := (inside reference inChunk).field
        have reached := (consecutive.references_inBounds s inRest).1
        simp only [Assembler.relocation]
        omega

theorem mem_labelsWith_iff {publicNames : List Text} {l : Label} :
    l ∈ labelsWith publicNames layout ↔
      ∃ p ∈ layout, p.statement.content = .label l.name ∧ l.value = p.offset ∧
        l.isPublic = publicNames.contains l.name := by
  rw [labelsWith, List.mem_filterMap]
  constructor
  · rintro ⟨p, member, defined⟩
    unfold label? at defined
    split at defined
    · rename_i name content
      cases defined
      exact ⟨p, member, content, rfl, rfl⟩
    · simp at defined
  · rintro ⟨p, member, content, value, isPublic⟩
    refine ⟨p, member, ?_⟩
    rw [label?, content, Option.some.injEq, ← value, ← isPublic]

theorem Consecutive.offset_bounds (consecutive : Consecutive catalog offset layout) {p : Placed}
    (member : p ∈ layout) : offset ≤ p.offset ∧ p.offset ≤ offset + layout.code.length := by
  obtain ⟨before, after, split⟩ := List.mem_iff_append.mp member
  have reached := (consecutive.placed split).1
  rw [split, code_append, List.length_append]
  omega

theorem Consecutive.labels_inBounds (consecutive : Consecutive catalog offset layout)
    (publicNames : List Text) :
    ∀ l ∈ labelsWith publicNames layout, l.InBounds (offset + layout.code.length) := by
  intro l member
  obtain ⟨p, placed, -, value, -⟩ := mem_labelsWith_iff.mp member
  have bounds := consecutive.offset_bounds placed
  exact ⟨by omega, by omega⟩

theorem isExternal_of_mem_references {r : Relocation} (member : r ∈ layout.references) :
    r.isExternal = false := by
  simp only [references, List.mem_flatMap, List.mem_map] at member
  obtain ⟨p, -, reference, -, rfl⟩ := member
  rfl

theorem Consecutive.object_inBounds (consecutive : Consecutive catalog 0 layout) :
    ∀ r ∈ layout.object.relocations, r.InBounds layout.object.code.length := by
  intro r member
  have bounds := (consecutive.references_inBounds r member).2
  rwa [Nat.zero_add] at bounds

theorem Consecutive.object_labels_inBounds (consecutive : Consecutive catalog 0 layout) :
    ∀ l ∈ layout.object.labels, l.InBounds layout.object.code.length := by
  intro l member
  have bounds := consecutive.labels_inBounds layout.globalNames l member
  rwa [Nat.zero_add] at bounds

theorem target?_object {r : Relocation} (distinct : (layout.labels.map (·.name)).Nodup)
    (member : r ∈ layout.references) {l : Label} :
    layout.object.target? r = some l ↔ l ∈ layout.labels ∧ l.name = r.label := by
  rw [Object.target?_of_not_external (isExternal_of_mem_references member)]
  exact Object.label?_eq_some_iff distinct

end Layout

end Asm64
