import Asm64.Image.Elf
import Asm64.Proofs.Assembler.Consistency
import Asm64.Proofs.Object.Obtainable
import Asm64.Proofs.ObjectFile.Canonical

/-!
# Working with objects

Objects that were assembled or read from files can be located, linked, made into executables and
written to files, in any order and any number of times.  Their fields lie in their code all the
while, so none of it fails because an object is broken.  Code never gets shorter, so it is enough
that the objects in the end are not too long for 64-bit offsets.
-/

namespace Asm64

namespace Object

abbrev FieldsInCode (o : Object) : Prop := ∀ r ∈ o.relocations, r.InCode o.code.length

section Link

variable {a b : Object} (inCodeA : a.FieldsInCode) (inCodeB : b.FieldsInCode)
  (addressable : Addressable (a.linkBase + b.code.length))

include inCodeA inCodeB addressable

theorem fieldsInCode_join_written : (a.written.join b.written).FieldsInCode := by
  apply inCode_join (inCode_written inCodeA) (inCode_written inCodeB)
  rwa [linkBase_written, length_written_code]

theorem fieldsInCode_of_link {o : Object} (linked : (a.link b).result = .ok o) :
    o.FieldsInCode := by
  obtain ⟨-, -, -, -, rfl⟩ := link_eq_ok_iff_stages.mp linked
  exact inCode_written (fieldsInCode_join_written inCodeA inCodeB addressable)

theorem consistent_of_link {e : LocateError} (failed : (a.link b).result = .error (.locate e)) :
    e.isInconsistency = false := by
  have longer := a.length_le_linkBase
  unfold link at failed
  split at failed
  · rename_i unlocated
    cases failed
    exact consistent_of_locateWith (addressable.mono (by omega)) inCodeA unlocated
  · rename_i locatedA
    obtain ⟨-, rfl⟩ := locatePartially_eq_ok_iff.mp locatedA
    split at failed
    · rename_i unlocated
      cases failed
      exact consistent_of_locateWith (addressable.mono (by omega)) inCodeB unlocated
    · rename_i locatedB
      obtain ⟨-, rfl⟩ := locatePartially_eq_ok_iff.mp locatedB
      unfold linkLocated at failed
      split at failed
      · cases failed
      · obtain ⟨reason, unlocated, same⟩ := mapError_eq_error_iff.mp failed
        cases same
        refine consistent_of_locateWith ?_
          (fieldsInCode_join_written inCodeA inCodeB addressable) unlocated
        rwa [length_join_code, linkBase_written, length_written_code]

end Link

theorem fieldsInCode_of_locateOutcome {o : Object} (inCode : o.FieldsInCode)
    (undefined : Undefined) : (o.locateOutcome undefined).object.FieldsInCode := by
  rcases locateOutcome_object_of_inCode inCode undefined with same | ⟨-, located⟩
  · rwa [same]
  · rw [located]
    exact inCode_written inCode

theorem fieldsInCode_of_link_other {b : Object} (inCode : b.FieldsInCode) (a : Object) :
    (a.link b).other.FieldsInCode := by
  rcases link_other_eq a b with same | located
  · rwa [same]
  · rw [located]
    exact fieldsInCode_of_locateOutcome inCode .kept

theorem linkBase_mono {a b : Object} (longer : a.code.length ≤ b.code.length) :
    a.linkBase ≤ b.linkBase := by
  unfold linkBase paddingFor linkAlignment
  omega

end Object

theorem ObjectFile.fieldsInCode_of_decode {file : List UInt8} {o : Object}
    (decoded : decode file = .ok o) : o.FieldsInCode := by
  intro r member
  obtain ⟨-, -, size, offset, field, -⟩ := (of_decode decoded).1.relocations r member
  exact ⟨by simpa [isFieldSize] using size, offset, field⟩

/-! ### Sessions -/

/-- What can be done with a collection of objects, which are named by their positions. -/
inductive Operation where
  | locate (i : Nat)
  | link (i j : Nat)
  | image (i : Nat) (entry : Text)
  | executable (i : Nat) (entry : Text)
  /-- Writes an object to a file, and adds what is read from it. -/
  | reload (i : Nat)
deriving DecidableEq, Repr

def Operation.place : Operation → Nat
  | locate i => i
  | link i _ => i
  | image i _ => i
  | executable i _ => i
  | reload i => i

inductive Operation.Error where
  | locate (error : LocateError)
  | link (error : LinkError)
  | image (error : ImageError)
  | executable (error : Elf.Error)
  | encode (error : ObjectFile.EncodeError)
  | decode (error : ObjectFile.DecodeError)
deriving DecidableEq, Repr

def Operation.Error.isInconsistency : Error → Bool
  | locate error => error.isInconsistency
  | link (.locate error) => error.isInconsistency
  | image (.locate error) => error.isInconsistency
  | _ => false

structure Session where
  objects : List Object
  errors : List Operation.Error
deriving DecidableEq, Repr

namespace Session

def replace (s : Session) (i : Nat) (o : Object) : Session :=
  { s with objects := s.objects.set i o }

def note (s : Session) : Option Operation.Error → Session
  | some e => { s with errors := s.errors ++ [e] }
  | none => s

def locateError? (o : Object) : Option Operation.Error :=
  match o.locate with
  | .ok _ => none
  | .error e => some (.locate e)

def imageError? (o : Object) (entry : Text) : Option Operation.Error :=
  match o.image entry with
  | .ok _ => none
  | .error e => some (.image e)

def executableError? (o : Object) (entry : Text) : Option Operation.Error :=
  match o.image entry with
  | .ok image =>
    match (Elf.encode image).result with
    | .ok _ => none
    | .error e => some (.executable e)
  | .error e => some (.image e)

/-- The object in its place is located, as far as it can be. -/
def settle (s : Session) (i : Nat) (o : Object) : Session :=
  s.replace i (o.locateOutcome .refused).object

def link (s : Session) (i j : Nat) (o other : Object) : Session :=
  let s := s.replace j (o.link other).other
  match (o.link other).result with
  | .ok linked => s.replace i linked
  | .error e => s.note (some (.link e))

def reload (s : Session) (o : Object) : Session :=
  match ObjectFile.encode o with
  | .error e => s.note (some (.encode e))
  | .ok file =>
    match ObjectFile.decode file with
    | .ok read => { s with objects := s.objects ++ [read] }
    | .error e => s.note (some (.decode e))

/-- Performs one operation on the object in its place.  An image needs a located object, and
leaves it so. -/
def performOn (s : Session) (o : Object) : Operation → Session
  | .locate i => (s.settle i o).note (locateError? o)
  | .link i j =>
    match s.objects[j]? with
    | some other => s.link i j o other
    | none => s
  | .image i entry => (s.settle i o).note (imageError? o entry)
  | .executable i entry => (s.settle i o).note (executableError? o entry)
  | .reload _ => s.reload o

/-- Performs one operation.  Nothing happens if there is no such object. -/
def perform (s : Session) (operation : Operation) : Session :=
  match s.objects[operation.place]? with
  | some o => s.performOn o operation
  | none => s

def run (objects : List Object) (operations : List Operation) : Session :=
  operations.foldl perform ⟨objects, []⟩

/-! ### Code never gets shorter -/

/-- Each object is still there, and no shorter. -/
def Grows (before after : List Object) : Prop :=
  ∀ o ∈ before, ∃ p ∈ after, o.code.length ≤ p.code.length

theorem Grows.refl (objects : List Object) : Grows objects objects :=
  fun o member => ⟨o, member, le_rfl⟩

theorem Grows.trans {first second third : List Object} (start : Grows first second)
    (rest : Grows second third) : Grows first third := by
  intro o member
  obtain ⟨p, inSecond, longer⟩ := start o member
  obtain ⟨q, inThird, longest⟩ := rest p inSecond
  exact ⟨q, inThird, longer.trans longest⟩

theorem grows_set {objects : List Object} {i : Nat} {o p : Object} (found : objects[i]? = some o)
    (longer : o.code.length ≤ p.code.length) : Grows objects (objects.set i p) := by
  intro q member
  obtain ⟨k, isThere⟩ := List.mem_iff_getElem?.mp member
  by_cases same : i = k
  · subst same
    rw [found, Option.some.injEq] at isThere
    subst isThere
    obtain ⟨inside, -⟩ := List.getElem?_eq_some_iff.mp found
    exact ⟨p, List.mem_of_getElem? (List.getElem?_set_self inside), longer⟩
  · refine ⟨q, List.mem_of_getElem? (i := k) ?_, le_rfl⟩
    rwa [List.getElem?_set_ne same]

theorem grows_settle {s : Session} {i : Nat} {o : Object} (found : s.objects[i]? = some o) :
    Grows s.objects (s.settle i o).objects :=
  grows_set found (Object.length_locateOutcome_code .refused o).ge

theorem grows_link {s : Session} {i j : Nat} {o other : Object} (found : s.objects[i]? = some o)
    (foundOther : s.objects[j]? = some other) :
    Grows s.objects (s.link i j o other).objects := by
  have first : Grows s.objects (s.replace j (o.link other).other).objects :=
    grows_set foundOther (Object.length_link_other o other).ge
  unfold link
  dsimp only
  split
  · rename_i linked isLinked
    refine first.trans ?_
    have longer : o.code.length ≤ linked.code.length := by
      rw [Object.length_of_link isLinked]
      exact (Object.length_le_length_join o other).1
    -- If an object is linked to itself, what stands in its place is the located object.
    by_cases same : j = i
    · subst same
      rw [found, Option.some.injEq] at foundOther
      subst foundOther
      obtain ⟨inside, -⟩ := List.getElem?_eq_some_iff.mp found
      exact grows_set (List.getElem?_set_self inside)
        ((Object.length_link_other o o).trans_le longer)
    · exact grows_set (by rw [replace, List.getElem?_set_ne same]; exact found) longer
  · exact first

theorem objects_note (s : Session) (e : Option Operation.Error) :
    (s.note e).objects = s.objects := by
  cases e <;> rfl

theorem grows_reload (s : Session) (o : Object) : Grows s.objects (s.reload o).objects := by
  unfold reload
  split
  · exact .refl _
  · split
    · exact fun o member => ⟨o, List.mem_append_left _ member, le_rfl⟩
    · exact .refl _

theorem grows_perform (s : Session) (operation : Operation) :
    Grows s.objects (s.perform operation).objects := by
  unfold perform
  split
  · rename_i o found
    cases operation with
    | locate i | image i entry | executable i entry =>
        rw [performOn, objects_note]
        exact grows_settle found
    | link i j =>
        rw [performOn]
        split
        · rename_i other foundOther
          exact grows_link found foundOther
        · exact .refl _
    | reload i => exact grows_reload s o
  · exact .refl _

theorem grows_foldl (s : Session) (operations : List Operation) :
    Grows s.objects (operations.foldl perform s).objects := by
  induction operations generalizing s with
  | nil => exact .refl _
  | cons operation rest inductionHypothesis =>
      exact (s.grows_perform operation).trans (inductionHypothesis (s.perform operation))

/-- The offsets into any two of the objects, linked to each other, are 64-bit numbers. -/
def Linkable (objects : List Object) : Prop :=
  ∀ a ∈ objects, ∀ b ∈ objects, Addressable (a.linkBase + b.code.length)

theorem Linkable.of_grows {before after : List Object} (linkable : Linkable after)
    (grows : Grows before after) : Linkable before := by
  intro a inA b inB
  obtain ⟨a', inAfter, longerA⟩ := grows a inA
  obtain ⟨b', inAfter', longerB⟩ := grows b inB
  have base := Object.linkBase_mono longerA
  exact (linkable a' inAfter b' inAfter').mono (by omega)

theorem Linkable.addressable {objects : List Object} (linkable : Linkable objects) {o : Object}
    (member : o ∈ objects) : Addressable o.code.length :=
  (linkable o member o member).mono (Nat.le_add_left _ _)

/-! ### No operation fails because an object is broken -/

structure Consistent (s : Session) : Prop where
  inCode : ∀ o ∈ s.objects, o.FieldsInCode
  errors : ∀ e ∈ s.errors, e.isInconsistency = false

section Steps

variable {s : Session} {o : Object} (consistent : s.Consistent) (inCode : o.FieldsInCode)

include consistent inCode in
theorem Consistent.replace (i : Nat) : (s.replace i o).Consistent where
  inCode := by
    intro p member
    rcases List.mem_or_eq_of_mem_set member with before | rfl
    · exact consistent.inCode p before
    · exact inCode
  errors := consistent.errors

include consistent in
theorem Consistent.note {e : Option Operation.Error}
    (isConsistent : ∀ error, e = some error → error.isInconsistency = false) :
    (s.note e).Consistent := by
  cases e with
  | none => exact consistent
  | some error =>
      refine ⟨consistent.inCode, ?_⟩
      intro other member
      rcases List.mem_append.mp member with before | last
      · exact consistent.errors other before
      · rw [List.mem_singleton.mp last]
        exact isConsistent error rfl

include consistent inCode in
theorem Consistent.settle (i : Nat) : (s.settle i o).Consistent :=
  consistent.replace (Object.fieldsInCode_of_locateOutcome inCode .refused) i

variable (addressable : Addressable o.code.length)

include inCode addressable

theorem consistent_of_locateError? {e : Operation.Error} (failed : locateError? o = some e) :
    e.isInconsistency = false := by
  unfold locateError? at failed
  split at failed
  · cases failed
  · rename_i unlocated
    cases failed
    exact Object.consistent_of_locateWith addressable inCode unlocated

theorem consistent_of_image {entry : Text} {e : ImageError}
    (failed : o.image entry = .error e) :
    (Operation.Error.image e).isInconsistency = false := by
  rw [Object.image, bind_eq_error_iff] at failed
  rcases failed with failed | ⟨located, -, noEntry⟩
  · obtain ⟨reason, unlocated, rfl⟩ := mapError_eq_error_iff.mp failed
    exact Object.consistent_of_locateWith addressable inCode unlocated
  · unfold Object.imageOfLocated at noEntry
    split at noEntry <;> cases noEntry
    rfl

theorem consistent_of_imageError? {entry : Text} {e : Operation.Error}
    (failed : imageError? o entry = some e) : e.isInconsistency = false := by
  unfold imageError? at failed
  split at failed
  · cases failed
  · rename_i noImage
    cases failed
    exact consistent_of_image inCode addressable noImage

theorem consistent_of_executableError? {entry : Text} {e : Operation.Error}
    (failed : executableError? o entry = some e) : e.isInconsistency = false := by
  unfold executableError? at failed
  split at failed
  · split at failed <;> cases failed
    rfl
  · rename_i noImage
    cases failed
    exact consistent_of_image inCode addressable noImage

end Steps

theorem Consistent.link {s : Session} {o other : Object} (consistent : s.Consistent)
    (inCode : o.FieldsInCode) (inCodeOther : other.FieldsInCode)
    (addressable : Addressable (o.linkBase + other.code.length)) (i j : Nat) :
    (s.link i j o other).Consistent := by
  have located := consistent.replace (Object.fieldsInCode_of_link_other inCodeOther o) j
  unfold Session.link
  dsimp only
  split
  · rename_i linked isLinked
    exact located.replace (Object.fieldsInCode_of_link inCode inCodeOther addressable isLinked) i
  · rename_i e failed
    apply located.note
    rintro _ ⟨⟩
    cases e with
    | locate reason => exact Object.consistent_of_link inCode inCodeOther addressable failed
    | redefined label => rfl

theorem Consistent.reload {s : Session} (consistent : s.Consistent) (o : Object) :
    (s.reload o).Consistent := by
  unfold Session.reload
  split
  · exact consistent.note (by rintro _ ⟨⟩; rfl)
  · split
    · rename_i read decoded
      refine ⟨?_, consistent.errors⟩
      intro p member
      rcases List.mem_append.mp member with before | last
      · exact consistent.inCode p before
      · rw [List.mem_singleton.mp last]
        exact ObjectFile.fieldsInCode_of_decode decoded
    · exact consistent.note (by rintro _ ⟨⟩; rfl)

/-- An operation leaves the fields of all objects in their code, and notes no inconsistency. -/
theorem Consistent.perform {s : Session} (consistent : s.Consistent)
    (linkable : Linkable s.objects) (operation : Operation) :
    (s.perform operation).Consistent := by
  unfold Session.perform
  split
  · rename_i o found
    have member := List.mem_of_getElem? found
    have inCode := consistent.inCode o member
    have addressable := linkable.addressable member
    cases operation with
    | locate i =>
        exact (consistent.settle inCode i).note fun _ =>
          consistent_of_locateError? inCode addressable
    | image i entry =>
        exact (consistent.settle inCode i).note fun _ =>
          consistent_of_imageError? inCode addressable
    | executable i entry =>
        exact (consistent.settle inCode i).note fun _ =>
          consistent_of_executableError? inCode addressable
    | link i j =>
        rw [performOn]
        split
        · rename_i other foundOther
          have memberOther := List.mem_of_getElem? foundOther
          exact consistent.link inCode (consistent.inCode other memberOther)
            (linkable o member other memberOther) i j
        · exact consistent
    | reload i => exact consistent.reload o
  · exact consistent

theorem Consistent.foldl {s : Session} (consistent : s.Consistent) {operations : List Operation}
    (linkable : Linkable (operations.foldl Session.perform s).objects) :
    (operations.foldl Session.perform s).Consistent := by
  induction operations generalizing s with
  | nil => exact consistent
  | cons operation rest inductionHypothesis =>
      have before := linkable.of_grows (grows_foldl s (operation :: rest))
      exact inductionHypothesis (consistent.perform before operation) linkable

end Session

inductive Loaded : Object → Prop where
  | assembled {a : Assembler} {source : Text} {assembly : Assembler.Assembly} :
      a.customDirectives = [] → a.assemble source = .ok assembly → Loaded assembly.object
  | decoded {file : List UInt8} {o : Object} : ObjectFile.decode file = .ok o → Loaded o

theorem Loaded.fieldsInCode {o : Object} (loaded : Loaded o) : o.FieldsInCode := by
  cases loaded with
  | assembled builtinOnly assembled =>
      obtain ⟨layout, laidOut, -, -, -, object⟩ :=
        Assembler.assembleStatements_eq_ok builtinOnly assembled
      obtain ⟨consecutive, -⟩ := Layout.ofStatements?_eq_some_iff.mp laidOut
      rw [object]
      exact Object.inCode_written fun r member => (consecutive.object_inBounds r member).inCode
  | decoded decoded => exact ObjectFile.fieldsInCode_of_decode decoded

/-- Neither assembling nor working with objects comes upon a contradiction: a source cannot lead to
one, whatever the catalog; the fields of an instruction are as they have to be; and the objects of
a session are never broken. -/
theorem nothing_is_inconsistent :
    (∀ (text : Text) (a : Assembler) (source : Text),
      Catalog.parse text = .ok a.catalog → a.customDirectives = [] →
      (∀ d, a.run (Statement.ofSource source) = .ok d → Addressable d.object.code.length) →
      ∀ e, a.assemble source = .error e → e.isInconsistency = false) ∧
    (∀ (f : Form) (position : Nat) (type : OperandType) (operand : Operand) (d next : Form.Draft),
      f.placeOperand position type operand d = .ok next →
      (∀ m, operand.value = .memory m → d.code.guardMemory m = .ok next.code) ∧
        ∀ width, type.valueWidth? = some width →
          ∃ value, d.code.setImmediate width.bytes value = .ok next.code) ∧
    ∀ (objects : List Object) (operations : List Operation), (∀ o ∈ objects, Loaded o) →
      Session.Linkable (Session.run objects operations).objects →
      ∀ e ∈ (Session.run objects operations).errors, e.isInconsistency = false := by
  refine ⟨?_, ?_, ?_⟩
  · intro text a source parsed builtinOnly addressable e failed
    exact Assembler.consistent_of_assembleStatements (Assembler.checked_forms parsed) builtinOnly
      (Statement.ofSource source) addressable failed
  · intro f position type operand d next placed
    exact Form.guarded_of_placeOperand position placed
  · intro objects operations loaded linkable
    have started : Session.Consistent ⟨objects, []⟩ :=
      ⟨fun o member => (loaded o member).fieldsInCode, by simp⟩
    exact (started.foldl linkable).errors

/-! A catalog of one form, a source with a high byte register next to a REX prefix and an unknown
instruction, and a session in which one reference stays open. -/

def sampleCatalogText : Text := ascii "// moves\nMOV reg/mem8 reg8, 88 /r\n"

def sampleFaultySource : Text := ascii "mov ah, r8b\nmov [rax, rcx, 4], bl\npush rax"

def sampleOperations : List Operation :=
  [.link 0 1, .locate 0, .link 0 0, .link 0 2, .image 0 (ascii "f"), .executable 1 (ascii "g"),
    .locate 2]

theorem loaded_of_standard (source : Text) {o : Object}
    (assembled : (Assembler.standard.assemble source).toOption.map (·.object) = some o) :
    Loaded o := by
  simp only [Option.map_eq_some_iff, toOption_eq_some_iff] at assembled
  obtain ⟨assembly, assembled, rfl⟩ := assembled
  exact .assembled rfl assembled

theorem nothing_is_inconsistent_sample :
    (∃ catalog e, Catalog.parse sampleCatalogText = .ok catalog ∧
      Assembler.assemble ⟨catalog, [], true⟩ sampleFaultySource = .error e ∧
      e.isInconsistency = false) ∧
    (Session.run [sampleFirst, sampleSecond, sampleThird] sampleOperations).errors.length = 3 ∧
    ∀ e ∈ (Session.run [sampleFirst, sampleSecond, sampleThird] sampleOperations).errors,
      e.isInconsistency = false := by
  refine ⟨?_, by decide +kernel, ?_⟩
  · have evaluated : (Catalog.parse sampleCatalogText).toOption.map (fun catalog =>
        let a : Assembler := ⟨catalog, [], true⟩
        ((a.run (Statement.ofSource sampleFaultySource)).toOption.map (·.object.code.length),
          (a.assemble sampleFaultySource).toOption)) = some (some 3, none) := by decide +kernel
    simp only [Option.map_eq_some_iff, toOption_eq_some_iff, Prod.mk.injEq] at evaluated
    obtain ⟨catalog, parsed, ⟨d, ran, length⟩, failed⟩ := evaluated
    cases assembled : Assembler.assemble ⟨catalog, [], true⟩ sampleFaultySource with
    | ok assembly =>
        rw [assembled] at failed
        cases failed
    | error e =>
        refine ⟨catalog, e, parsed, assembled, ?_⟩
        apply nothing_is_inconsistent.1 sampleCatalogText ⟨catalog, [], true⟩ sampleFaultySource
          parsed rfl _ e assembled
        intro other reached
        rw [ran] at reached
        cases reached
        rw [length]
        unfold Addressable
        decide
  · apply nothing_is_inconsistent.2.2
    · simp only [List.forall_mem_cons]
      refine ⟨?_, ?_, ?_, by simp⟩
      · exact loaded_of_standard (ascii ".global f\nf: add eax, g[rip]") (by decide +kernel)
      · exact loaded_of_standard (ascii ".global g\ng: add eax, f[rip]") (by decide +kernel)
      · exact loaded_of_standard (ascii "add g[rip], f") (by decide +kernel)
    · unfold Session.Linkable Addressable
      decide +kernel

end Asm64
