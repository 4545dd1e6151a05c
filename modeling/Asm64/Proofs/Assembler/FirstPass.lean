import Asm64.Proofs.Assembler.Layout

/-!
# The assembler lays its statements out

Between two statements the draft holds the code, the labels and the references of the layout so
far, and the `.global` directives that wait.  One statement adds its chunk, which is listed if it
has any bytes; a whole source ends with its layout.
-/

namespace Asm64.Assembler

/-- The draft between two statements, read as the layout of the statements before. -/
structure Represents (d : Draft) (layout : Layout) : Prop where
  code : d.object.code = layout.code
  labels : d.object.labels = Layout.labelsWith [] layout
  references : d.object.relocations = layout.references
  definitions : d.definitions.map Prod.fst = (d.object.labels.map (·.name)).reverse
  distinct : (d.object.labels.map (·.name)).Nodup
  waiting : ∀ deferred ∈ d.globals, deferred.directive.action = .global
  globalNames :
    d.globals.reverse.map (fun deferred => Text.trim deferred.arguments) = layout.globalNames

theorem Represents.empty : Represents .empty [] where
  code := rfl
  labels := rfl
  references := rfl
  definitions := rfl
  distinct := List.nodup_nil
  waiting := by simp [Draft.empty]
  globalNames := rfl

section Statements

variable {a : Assembler} {catalog : Catalog} {d : Draft} {layout : Layout}

/-! ### Directives -/

theorem lookup?_nil_eq_some {name : Text} {directive : Directive}
    (known : Directive.lookup? [] name = some directive) :
    ∃ title action, (title, action) ∈ Directive.builtin ∧ ascii title = name ∧
      directive = ⟨name, action⟩ := by
  unfold Directive.lookup? at known
  cases found : Directive.builtin.find? (fun entry => ascii entry.1 == name) with
  | none => simp [found] at known
  | some entry =>
      simp only [found, Option.some.injEq] at known
      exact ⟨entry.1, entry.2, List.mem_of_find?_eq_some found,
        by simpa using List.find?_some found, known.symm⟩

theorem lookup?_eq_some {custom : List (Text × CustomDirective)} {name : Text}
    {directive : Directive} (known : Directive.lookup? custom name = some directive) :
    Directive.lookup? [] name = some directive ∨
      Directive.lookup? [] name = none ∧ ∃ run, directive = ⟨name, .custom run⟩ := by
  unfold Directive.lookup? at known ⊢
  cases found : Directive.builtin.find? (fun entry => ascii entry.1 == name) with
  | some entry =>
      simp only [found] at known
      exact Or.inl known
  | none =>
      simp only [found, Option.map_eq_some_iff] at known
      obtain ⟨run, -, rfl⟩ := known
      exact Or.inr ⟨rfl, run, rfl⟩

theorem action_eq_global_iff {custom : List (Text × CustomDirective)} {name : Text}
    {directive : Directive} (known : Directive.lookup? custom name = some directive) :
    directive.action = .global ↔ name = ascii "global" := by
  rcases lookup?_eq_some known with builtin | ⟨unknown, run, rfl⟩
  · obtain ⟨title, action, member, rfl, rfl⟩ := lookup?_nil_eq_some builtin
    simp only [Directive.builtin, List.mem_cons, Prod.mk.injEq, List.not_mem_nil,
      or_false] at member
    rcases member with ⟨rfl, rfl⟩ | ⟨rfl, rfl⟩ | ⟨rfl, rfl⟩ | ⟨rfl, rfl⟩ | ⟨rfl, rfl⟩ |
        ⟨rfl, rfl⟩ | ⟨rfl, rfl⟩
    · simp
    all_goals
      simp only [reduceCtorEq, false_iff]
      decide
  · simp only [reduceCtorEq, false_iff]
    rintro rfl
    cases unknown

theorem readValue_eq_ok_iff {name field : Text} {width : Width} {i : Integer} :
    Directive.readValue name width field = .ok i ↔
      (Integer.parse? field).filter (fun i => i.fits width) = some i := by
  unfold Directive.readValue
  cases parsed : Integer.parse? field with
  | none => simp
  | some value =>
      cases fits : value.fits width <;> simp [Option.filter, fits]

theorem applyData_eq_ok {name arguments : Text} {width : Width} {o changed : Object}
    (applied : Directive.applyData name width o arguments = .ok changed) :
    ∃ values, Chunk.dataValues? width arguments = some values ∧
      changed = { o with code := o.code ++ Directive.dataBytes width values } := by
  unfold Directive.applyData at applied
  unfold Chunk.dataValues?
  cases fields : Text.fields arguments with
  | nil => simp [fields] at applied
  | cons first rest =>
      simp only [fields, bind_eq_ok_iff, pure_eq_ok_iff] at applied
      obtain ⟨values, read, rfl⟩ := applied
      exact ⟨values, mapM_eq_some_of_eq_ok readValue_eq_ok_iff.mp read, rfl⟩

theorem apply_eq_append {name arguments : Text} {directive : Directive} {o : Object}
    (known : Directive.lookup? [] name = some directive) (adds : directive.action ≠ .global)
    (succeeded : (directive.apply o arguments).error = none) :
    ∃ bytes,
      Chunk.directiveBytes? o.code.length (Text.trim arguments) directive.action = some bytes ∧
      (directive.apply o arguments).object = { o with code := o.code ++ bytes } := by
  obtain ⟨title, action, member, rfl, rfl⟩ := lookup?_nil_eq_some known
  unfold Directive.apply at succeeded ⊢
  cases action with
  | global => exact absurd rfl adds
  | data width =>
      cases applied : Directive.applyData (ascii title) width o (Text.trim arguments) with
      | error flaw => simp [applied, Directive.Outcome.ofExcept] at succeeded
      | ok changed =>
          obtain ⟨values, read, rfl⟩ := applyData_eq_ok applied
          refine ⟨Directive.dataBytes width values,
            by rw [Chunk.directiveBytes?, read]; rfl, ?_⟩
          simp [applied, Directive.Outcome.ofExcept]
  | utf8 =>
      cases quoted : Directive.unquote (Text.trim arguments) with
      | error flaw =>
          simp [Directive.applyUtf8, quoted, Directive.Outcome.ofExcept] at succeeded
      | ok text =>
          refine ⟨text ++ [0], by rw [Chunk.directiveBytes?, quoted]; rfl, ?_⟩
          simp [Directive.applyUtf8, quoted, Directive.Outcome.ofExcept]
  | align alignment =>
      cases empty : Text.trim arguments with
      | cons first rest =>
          simp [Directive.applyAlign, empty, Directive.Outcome.ofExcept] at succeeded
      | nil =>
          refine ⟨List.replicate (paddingFor alignment o.code.length) 0,
            by simp [Chunk.directiveBytes?], ?_⟩
          simp [Directive.applyAlign, Directive.Outcome.ofExcept, Object.pad]
  | custom run => simp [Directive.builtin] at member
  | unassigned number => simp [Directive.builtin] at member

/-! ### Single statements -/

theorem Represents.extend {next : Draft} {p : Placed} (represents : Represents d layout)
    (code : next.object.code = d.object.code ++ p.chunk.bytes)
    (labels : next.object.labels = d.object.labels)
    (references : next.object.relocations =
      d.object.relocations ++ p.chunk.references.map (relocation p.offset))
    (definitions : next.definitions = d.definitions) (globals : next.globals = d.globals)
    (noLabel : Layout.label? [] p = none)
    (noGlobal : Layout.globalName? p.statement.content = none) :
    Represents next (layout ++ [p]) where
  code := by rw [code, represents.code, Layout.code_append]; simp [Layout.code]
  labels := by
    rw [labels, represents.labels, Layout.labelsWith_append]
    simp [Layout.labelsWith, noLabel]
  references := by
    rw [references, represents.references, Layout.references_append]
    simp [Layout.references]
  definitions := by rw [definitions, labels, represents.definitions]
  distinct := by rw [labels]; exact represents.distinct
  waiting := by rw [globals]; exact represents.waiting
  globalNames := by
    rw [globals, represents.globalNames, Layout.globalNames_append]
    simp [Layout.globalNames, noGlobal]

theorem addLabel_represents {line : Nat} {name : Text} {next : Draft} {p : Placed}
    (represents : Represents d layout) (added : addLabel line name d = .ok next)
    (content : p.statement.content = .label name) (offset : p.offset = layout.code.length)
    (chunk : p.chunk = ⟨[], []⟩) : Represents next (layout ++ [p]) := by
  unfold addLabel at added
  cases known : d.definitions.lookup name with
  | some firstLine => simp [known] at added
  | none =>
      simp only [known] at added
      split at added
      · simp at added
      · cases added
        have fresh : name ∉ d.object.labels.map (·.name) := by
          intro member
          rw [← List.mem_reverse, ← represents.definitions, List.mem_map] at member
          obtain ⟨⟨_, firstLine⟩, defined, rfl⟩ := member
          exact absurd (List.lookup_eq_none_iff.mp known _ defined) (by simp)
        exact
          { code := by rw [Layout.code_append, ← represents.code]; simp [Layout.code, chunk]
            labels := by
              rw [Layout.labelsWith_append, ← represents.labels]
              simp [Layout.labelsWith, Layout.label?, content, offset, represents.code]
            references := by
              rw [Layout.references_append, ← represents.references]
              simp [Layout.references, chunk]
            definitions := by simp [represents.definitions]
            distinct := by
              simp only [List.map_append, List.map_cons, List.map_nil]
              exact List.nodup_append.mpr ⟨represents.distinct, List.nodup_singleton _, by
                intro other member _ same
                rw [List.mem_singleton] at same
                rintro rfl
                exact fresh (same ▸ member)⟩
            waiting := represents.waiting
            globalNames := by
              rw [Layout.globalNames_append, ← represents.globalNames]
              simp [Layout.globalNames, Layout.globalName?, content] }

theorem performDirective_of_global {line : Nat} {name arguments : Text} {directive : Directive}
    (known : Directive.lookup? a.customDirectives name = some directive)
    (global : directive.action = .global) :
    a.performDirective line name arguments d =
      ⟨{ d with globals := ⟨line, directive, arguments⟩ :: d.globals }, none⟩ := by
  simp only [performDirective, known, global]

theorem performDirective_of_not_global {line : Nat} {name arguments : Text}
    {directive : Directive}
    (known : Directive.lookup? a.customDirectives name = some directive)
    (adds : directive.action ≠ .global) :
    a.performDirective line name arguments d =
      ⟨{ d with object := (directive.apply d.object arguments).object },
        (directive.apply d.object arguments).error.map .directive⟩ := by
  simp only [performDirective, known]

theorem performDirective_represents {line : Nat} {name arguments : Text} {s : Statement}
    (builtinOnly : a.customDirectives = []) (content : s.content = .directive name arguments)
    (performed : (a.performDirective line name arguments d).fault = none)
    (represents : Represents d layout) :
    ∃ chunk, Chunk.ofContent? catalog layout.code.length s.content = some chunk ∧
      Represents (a.performDirective line name arguments d).draft
        (layout ++ [⟨s, layout.code.length, chunk⟩]) := by
  cases known : Directive.lookup? a.customDirectives name with
  | none => simp [performDirective, known] at performed
  | some directive =>
      have builtin : Directive.lookup? [] name = some directive := builtinOnly ▸ known
      by_cases global : directive.action = .global
      · have named := (action_eq_global_iff builtin).mp global
        rw [performDirective_of_global known global]
        refine ⟨⟨[], []⟩, ?_, ?_⟩
        · simp [content, Chunk.ofContent?, builtin, global, Chunk.directiveBytes?]
        · exact
            { code := by rw [Layout.code_append, ← represents.code]; simp [Layout.code]
              labels := by
                rw [Layout.labelsWith_append, ← represents.labels]
                simp [Layout.labelsWith, Layout.label?, content]
              references := by
                rw [Layout.references_append, ← represents.references]
                simp [Layout.references]
              definitions := represents.definitions
              distinct := represents.distinct
              waiting := by
                intro deferred member
                rcases List.mem_cons.mp member with rfl | earlier
                · exact global
                · exact represents.waiting deferred earlier
              globalNames := by
                rw [Layout.globalNames_append, ← represents.globalNames]
                simp [Layout.globalNames, Layout.globalName?, content, named] }
      · have notNamed : name ≠ ascii "global" := mt (action_eq_global_iff builtin).mpr global
        rw [performDirective_of_not_global known global] at performed ⊢
        obtain ⟨bytes, chunk, changed⟩ :=
          apply_eq_append builtin global (Option.map_eq_none_iff.mp performed)
        refine ⟨⟨bytes, []⟩, ?_, ?_⟩
        · simp [content, Chunk.ofContent?, builtin, ← represents.code, chunk]
        · apply represents.extend <;> simp [changed, content, Layout.label?, Layout.globalName?,
            notNamed]

theorem readOperand_eq_ok {text : Text} {operand : Operand}
    (read : readOperand text = .ok operand) : (Operand.parse text).toOption = some operand := by
  unfold readOperand at read
  cases parsed : Operand.parse text with
  | error e => simp [parsed] at read
  | ok value =>
      simp only [parsed] at read
      split at read
      · split at read <;> cases read
        rfl
      · cases read
        rfl

theorem exists_entry_of_encodeInstruction {statement mnemonic : Text} {texts : List Text}
    {i : Instruction} (encoded : encodeInstruction catalog statement mnemonic texts = .ok i) :
    ∃ operands entry, texts.mapM readOperand = .ok operands ∧
      catalog.lookup? mnemonic operands = some entry ∧ entry.form.encode operands = .ok i := by
  simp only [encodeInstruction, bind_eq_ok_iff] at encoded
  obtain ⟨operands, read, encoded⟩ := encoded
  cases found : catalog.lookup? mnemonic operands with
  | none =>
      simp only [found] at encoded
      split at encoded <;> simp at encoded
  | some entry =>
      simp only [found, mapError_eq_ok_iff] at encoded
      exact ⟨operands, entry, read, found, encoded⟩

theorem encodeInstruction_eq_ok {statement mnemonic : Text} {texts : List Text}
    {i : Instruction} (encoded : encodeInstruction catalog statement mnemonic texts = .ok i)
    (offset : Nat) :
    Chunk.ofContent? catalog offset (.instruction mnemonic texts) =
      some ⟨i.code.bytes, i.references⟩ := by
  obtain ⟨operands, entry, read, found, encoded⟩ := exists_entry_of_encodeInstruction encoded
  have parsed : texts.mapM (fun text => (Operand.parse text).toOption) = some operands :=
    mapM_eq_some_of_eq_ok readOperand_eq_ok read
  have kept : (entry.form.encode operands).toOption = some i := by rw [encoded]; rfl
  simp [Chunk.ofContent?, parsed, found, kept]

/-- A statement without a fault adds its chunk to the layout. -/
theorem perform_represents {line : Nat} {s : Statement} (builtinOnly : a.customDirectives = [])
    (performed : (a.perform catalog line s d).fault = none) (represents : Represents d layout) :
    ∃ chunk, Chunk.ofContent? catalog layout.code.length s.content = some chunk ∧
      Represents (a.perform catalog line s d).draft
        (layout ++ [⟨s, layout.code.length, chunk⟩]) := by
  unfold perform at performed ⊢
  cases content : s.content with
  | blank =>
      refine ⟨⟨[], []⟩, rfl, ?_⟩
      apply represents.extend <;> simp [content, Layout.label?, Layout.globalName?]
  | label name =>
      refine ⟨⟨[], []⟩, rfl, ?_⟩
      simp only [content] at performed ⊢
      cases added : addLabel line name d with
      | error fault => simp [added, Step.ofExcept] at performed
      | ok next => exact addLabel_represents represents added content rfl rfl
  | directive name arguments =>
      simp only [content] at performed ⊢
      rw [← content]
      exact performDirective_represents builtinOnly content performed represents
  | instruction mnemonic texts =>
      simp only [content] at performed ⊢
      cases encoded : encodeInstruction catalog s.text mnemonic texts with
      | error fault => simp [encoded, Except.map, Step.ofExcept] at performed
      | ok i =>
          refine ⟨⟨i.code.bytes, i.references⟩, encodeInstruction_eq_ok encoded _, ?_⟩
          apply represents.extend <;>
            simp [Except.map, Step.ofExcept, appendInstruction, content, Layout.label?,
              Layout.globalName?, represents.code]
  | unknown => simp [content] at performed

/-! ### Whole sources -/

theorem report_errors {e : LineError} {next : Draft} (reported : a.report e d = .ok next) :
    next.errors ≠ [] := by
  unfold report at reported
  split at reported <;> cases reported
  simp

theorem performDirective_keeps (line : Nat) (name arguments : Text) :
    (a.performDirective line name arguments d).draft.errors = d.errors ∧
      (a.performDirective line name arguments d).draft.listing = d.listing := by
  unfold performDirective
  split
  · exact ⟨rfl, rfl⟩
  · split <;> exact ⟨rfl, rfl⟩

theorem perform_keeps (line : Nat) (s : Statement) :
    (a.perform catalog line s d).draft.errors = d.errors ∧
      (a.perform catalog line s d).draft.listing = d.listing := by
  unfold perform
  split
  · exact ⟨rfl, rfl⟩
  · rename_i name _
    cases added : addLabel line name d with
    | error fault => exact ⟨rfl, rfl⟩
    | ok next =>
        unfold addLabel at added
        split at added
        · simp at added
        · split at added <;> cases added
          exact ⟨rfl, rfl⟩
  · exact performDirective_keeps line _ _
  · rename_i mnemonic texts _
    cases encodeInstruction catalog s.text mnemonic texts <;> exact ⟨rfl, rfl⟩
  · exact ⟨rfl, rfl⟩

theorem perform_errors (line : Nat) (s : Statement) :
    (a.perform catalog line s d).draft.errors = d.errors := (perform_keeps line s).1

theorem step_of_clean {numbered : Nat × Statement} {next : Draft}
    (stepped : a.step catalog d numbered = .ok next) (clean : next.errors = []) :
    d.errors = [] ∧ (a.perform catalog numbered.1 numbered.2 d).fault = none ∧
      next = (a.perform catalog numbered.1 numbered.2 d).draft.list d.object.code.length
        numbered.2.text := by
  unfold step at stepped
  cases fault : (a.perform catalog numbered.1 numbered.2 d).fault with
  | some fault =>
      simp only [fault, map_eq_ok_iff] at stepped
      obtain ⟨noted, reported, rfl⟩ := stepped
      have noErrors : noted.errors = [] := clean
      exact absurd noErrors (report_errors reported)
  | none =>
      simp only [fault, Except.ok.injEq] at stepped
      subst stepped
      have kept : (a.perform catalog numbered.1 numbered.2 d).draft.errors = d.errors :=
        perform_errors numbered.1 numbered.2
      refine ⟨?_, rfl, rfl⟩
      rw [← kept]
      unfold Draft.list at clean
      split at clean <;> exact clean

theorem Represents.list (represents : Represents d layout) (start : Nat) (text : Text) :
    Represents (d.list start text) layout := by
  unfold Draft.list
  split
  · exact ⟨represents.code, represents.labels, represents.references, represents.definitions,
      represents.distinct, represents.waiting, represents.globalNames⟩
  · exact represents

theorem foldlM_step_of_clean {statements : List (Nat × Statement)} {final : Draft}
    (ran : statements.foldlM (a.step catalog) d = .ok final) (clean : final.errors = []) :
    d.errors = [] :=
  (foldlM_eq_ok_of_agree (fun d : Draft => d.errors = [])
    (fun stepped clean => ⟨(step_of_clean stepped clean).1, stepped⟩) ran clean).1

theorem listing_list {start : Nat} {p : Placed}
    (length : d.object.code.length = start + p.chunk.bytes.length) (offset : p.offset = start) :
    (d.list start p.statement.text).listing.reverse =
      d.listing.reverse ++ (Layout.entry? p).toList := by
  unfold Draft.list Layout.entry?
  by_cases empty : p.chunk.bytes = []
  · rw [empty] at length
    rw [if_pos empty, if_neg (by simp [length])]
    exact (List.append_nil _).symm
  · have positive := List.length_pos_iff.mpr empty
    rw [if_neg empty, if_pos (by omega), length, offset]
    exact List.reverse_cons

/-- A step that ends without errors adds a chunk to the layout, and lists it. -/
theorem step_represents {numbered : Nat × Statement} {next : Draft}
    (builtinOnly : a.customDirectives = []) (stepped : a.step catalog d numbered = .ok next)
    (clean : next.errors = []) (represents : Represents d layout) :
    ∃ p : Placed, p.statement = numbered.2 ∧ p.offset = layout.code.length ∧
      Chunk.ofContent? catalog p.offset p.statement.content = some p.chunk ∧
      Represents next (layout ++ [p]) ∧
      next.listing.reverse = d.listing.reverse ++ (Layout.entry? p).toList := by
  obtain ⟨-, performed, rfl⟩ := step_of_clean stepped clean
  obtain ⟨chunk, placed, extended⟩ := perform_represents builtinOnly performed represents
  refine ⟨⟨numbered.2, layout.code.length, chunk⟩, rfl, rfl, placed, extended.list _ _, ?_⟩
  have length : (a.perform catalog numbered.1 numbered.2 d).draft.object.code.length =
      layout.code.length + chunk.bytes.length := by
    rw [extended.code]
    simp [Layout.code]
  have kept : (a.perform catalog numbered.1 numbered.2 d).draft.listing = d.listing :=
    (perform_keeps numbered.1 numbered.2).2
  rw [represents.code, ← kept]
  exact listing_list (p := ⟨numbered.2, layout.code.length, chunk⟩) length rfl

theorem foldlM_step_represents {statements : List (Nat × Statement)} {final : Draft}
    (builtinOnly : a.customDirectives = [])
    (ran : statements.foldlM (a.step catalog) d = .ok final) (clean : final.errors = [])
    (represents : Represents d layout) :
    ∃ later, Layout.ofStatements? catalog layout.code.length (statements.map Prod.snd) =
        some later ∧
      Represents final (layout ++ later) ∧
      final.listing.reverse = d.listing.reverse ++ Layout.entries later := by
  induction statements generalizing d layout with
  | nil =>
      rw [List.foldlM_nil, pure_eq_ok_iff] at ran
      subst ran
      rw [← List.append_nil layout] at represents
      exact ⟨[], rfl, represents, (List.append_nil _).symm⟩
  | cons numbered rest inductionHypothesis =>
      rw [List.foldlM_cons, bind_eq_ok_iff] at ran
      obtain ⟨next, stepped, ran⟩ := ran
      obtain ⟨p, statement, offset, placed, extended, listed⟩ :=
        step_represents builtinOnly stepped (foldlM_step_of_clean ran clean) represents
      obtain ⟨later, laidOut, represented, others⟩ := inductionHypothesis ran extended
      refine ⟨p :: later, ?_, ?_, ?_⟩
      · have reached : (layout ++ [p]).code.length = layout.code.length + p.chunk.bytes.length := by
          simp [Layout.code]
        rw [reached, ← offset] at laidOut
        rw [List.map_cons, ← statement, ← offset]
        simp [Layout.ofStatements?, placed, laidOut]
      · simpa using represented
      · rw [others, listed, List.append_assoc, Layout.entries, Layout.entries, List.filterMap_cons]
        cases Layout.entry? p <;> rfl

/-! ### Making labels public -/

/-- The label, made public if its name is one of those given. -/
def publishedIn (names : List Text) (l : Label) : Label :=
  { l with isPublic := l.isPublic || names.contains l.name }

theorem publishedIn_eq_self {names : List Text} {l : Label} (absent : l.name ∉ names) :
    publishedIn names l = l := by
  simp [publishedIn, absent]

theorem map_publishedIn_eq_self {names : List Text} {labels : List Label}
    (absent : ∀ l ∈ labels, l.name ∉ names) : labels.map (publishedIn names) = labels := by
  rw [List.map_congr_left fun l member => publishedIn_eq_self (absent l member)]
  exact List.map_id' labels

theorem publishedIn_cons (name : Text) (rest : List Text) (l : Label) :
    publishedIn rest (publishedIn [name] l) = publishedIn (name :: rest) l := by
  simp [publishedIn, Bool.or_assoc]

theorem publish_eq_some {name : Text} {labels published : List Label}
    (distinct : (labels.map (·.name)).Nodup)
    (found : Directive.publish name labels = some published) :
    published = labels.map (publishedIn [name]) := by
  induction labels generalizing published with
  | nil => simp [Directive.publish] at found
  | cons l rest inductionHypothesis =>
      rw [List.map_cons, List.nodup_cons] at distinct
      unfold Directive.publish at found
      by_cases named : l.name = name
      · rw [if_pos named, Option.some.injEq] at found
        have others : rest.map (publishedIn [name]) = rest := by
          apply map_publishedIn_eq_self
          intro other member
          rw [List.mem_singleton, ← named]
          exact fun same => distinct.1 (List.mem_map.mpr ⟨other, member, same⟩)
        rw [← found, List.map_cons, others]
        simp [publishedIn, named]
      · rw [if_neg named, Option.map_eq_some_iff] at found
        obtain ⟨publishedRest, foundRest, rfl⟩ := found
        rw [List.map_cons, inductionHypothesis distinct.2 foundRest,
          publishedIn_eq_self (by simpa using named)]

theorem mem_names_of_publish {name : Text} {labels published : List Label}
    (found : Directive.publish name labels = some published) : name ∈ labels.map (·.name) := by
  induction labels generalizing published with
  | nil => simp [Directive.publish] at found
  | cons l rest inductionHypothesis =>
      unfold Directive.publish at found
      rw [List.map_cons]
      by_cases named : l.name = name
      · rw [named]
        exact List.mem_cons_self
      · rw [if_neg named, Option.map_eq_some_iff] at found
        obtain ⟨publishedRest, foundRest, -⟩ := found
        exact List.mem_cons_of_mem _ (inductionHypothesis foundRest)

theorem finishGlobal_errors {deferred : Deferred} {next : Draft}
    (finished : a.finishGlobal d deferred = .ok next) (clean : next.errors = []) :
    d.errors = [] := by
  unfold finishGlobal at finished
  dsimp only at finished
  split at finished
  · cases finished
    exact clean
  · exact absurd clean (report_errors finished)

theorem foldlM_finishGlobal_errors {deferred : List Deferred} {final : Draft}
    (ran : deferred.foldlM a.finishGlobal d = .ok final) (clean : final.errors = []) :
    d.errors = [] :=
  (foldlM_eq_ok_of_agree (fun d : Draft => d.errors = [])
    (fun finished clean => ⟨finishGlobal_errors finished clean, finished⟩) ran clean).1

theorem finishGlobal_of_clean {deferred : Deferred} {next : Draft}
    (global : deferred.directive.action = .global)
    (finished : a.finishGlobal d deferred = .ok next) (clean : next.errors = []) :
    ∃ labels, Directive.publish (Text.trim deferred.arguments) d.object.labels = some labels ∧
      next = { d with object := { d.object with labels } } := by
  unfold finishGlobal at finished
  simp only [Directive.apply, global] at finished
  cases applied : Directive.applyGlobal d.object (Text.trim deferred.arguments) with
  | error flaw =>
      simp only [applied, Directive.Outcome.ofExcept] at finished
      exact absurd clean (report_errors finished)
  | ok changed =>
      simp only [applied, Directive.Outcome.ofExcept, Except.ok.injEq] at finished
      subst finished
      unfold Directive.applyGlobal at applied
      split at applied
      · simp at applied
      · split at applied
        · rename_i labels published
          cases applied
          exact ⟨labels, published, rfl⟩
        · simp at applied

theorem publishedIn_names (names : List Text) (labels : List Label) :
    (labels.map (publishedIn names)).map (·.name) = labels.map (·.name) := by
  rw [List.map_map]
  rfl

/-- The `.global` directives name labels that exist, and exactly these have become public. -/
theorem foldlM_finishGlobal_of_clean {deferred : List Deferred} {final : Draft}
    (global : ∀ waiting ∈ deferred, waiting.directive.action = .global)
    (distinct : (d.object.labels.map (·.name)).Nodup)
    (ran : deferred.foldlM a.finishGlobal d = .ok final) (clean : final.errors = []) :
    (∀ name ∈ deferred.map fun waiting => Text.trim waiting.arguments,
      name ∈ d.object.labels.map (·.name)) ∧
    final.object = { d.object with
      labels := d.object.labels.map
        (publishedIn (deferred.map fun waiting => Text.trim waiting.arguments)) } ∧
    final.listing = d.listing := by
  induction deferred generalizing d with
  | nil =>
      rw [List.foldlM_nil, pure_eq_ok_iff] at ran
      subst ran
      rw [List.map_nil, map_publishedIn_eq_self fun _ _ => List.not_mem_nil]
      exact ⟨by simp, rfl, rfl⟩
  | cons waiting rest inductionHypothesis =>
      rw [List.foldlM_cons, bind_eq_ok_iff] at ran
      obtain ⟨next, finished, ran⟩ := ran
      have globalFirst := global waiting List.mem_cons_self
      have globalRest : ∀ later ∈ rest, later.directive.action = .global := fun later member =>
        global later (List.mem_cons_of_mem waiting member)
      obtain ⟨labels, published, rfl⟩ :=
        finishGlobal_of_clean globalFirst finished (foldlM_finishGlobal_errors ran clean)
      rw [publish_eq_some distinct published] at ran
      obtain ⟨defined, object, listing⟩ :=
        inductionHypothesis globalRest (by rw [publishedIn_names]; exact distinct) ran
      rw [publishedIn_names] at defined
      rw [List.map_cons, List.forall_mem_cons]
      refine ⟨⟨mem_names_of_publish published, defined⟩, ?_, listing⟩
      rw [object]
      simp [List.map_map, Function.comp_def, publishedIn_cons]

end Statements

def forms (a : Assembler) : Catalog := if a.catalog.isEmpty then Catalog.standard else a.catalog

/-- A source without errors ends as the object of its layout.  Its labels have different names,
and what it makes public is one of them. -/
theorem run_of_clean {a : Assembler} {statements : List (Nat × Statement)} {d : Draft}
    (builtinOnly : a.customDirectives = []) (ran : a.run statements = .ok d)
    (clean : d.errors = []) :
    ∃ layout, Layout.ofStatements? a.forms 0 (statements.map Prod.snd) = some layout ∧
      d.object = layout.object ∧ (layout.labels.map (·.name)).Nodup ∧
      (∀ name ∈ layout.globalNames, name ∈ layout.labels.map (·.name)) ∧
      d.listing.reverse = layout.entries := by
  simp only [run, bind_eq_ok_iff] at ran
  obtain ⟨drafted, stepped, finished⟩ := ran
  obtain ⟨layout, laidOut, represents, listed⟩ := foldlM_step_represents builtinOnly stepped
    (foldlM_finishGlobal_errors finished clean) Represents.empty
  rw [List.nil_append] at represents
  have waiting : ∀ deferred ∈ drafted.globals.reverse, deferred.directive.action = .global :=
    fun deferred member => represents.waiting deferred (List.mem_reverse.mp member)
  have labels : drafted.object.labels.map (publishedIn layout.globalNames) = layout.labels := by
    rw [represents.labels, Layout.labels, Layout.labelsWith_eq_map layout.globalNames]
    apply List.map_congr_left
    intro l member
    obtain ⟨-, -, -, -, isPrivate⟩ := Layout.mem_labelsWith_iff.mp member
    simp [publishedIn, isPrivate]
  have names : layout.labels.map (·.name) = drafted.object.labels.map (·.name) := by
    rw [← labels, publishedIn_names]
  obtain ⟨defined, object, listing⟩ :=
    foldlM_finishGlobal_of_clean waiting represents.distinct finished clean
  rw [represents.globalNames] at defined object
  refine ⟨layout, laidOut, ?_, ?_, ?_, listing ▸ listed⟩
  · rw [object, labels]
    simp only [Layout.object, represents.code, represents.references]
  · rw [names]
    exact represents.distinct
  · rw [names]
    exact defined

theorem exists_draft_of_assembleStatements {a : Assembler} {statements : List (Nat × Statement)}
    {assembly : Assembly} (assembled : a.assembleStatements statements = .ok assembly) :
    ∃ d, a.run statements = .ok d ∧ d.errors = [] ∧ d.object.AllWritable ∧
      assembly.object = d.object.written ∧
      assembly.listing = Listing.render assembly.object.code d.listing.reverse := by
  simp only [assembleStatements, bind_eq_ok_iff, mapError_eq_ok_iff] at assembled
  obtain ⟨d, ran, assembled⟩ := assembled
  cases errors : d.errors with
  | cons error rest => simp [errors, bind, Except.bind] at assembled
  | nil =>
      simp only [errors, List.isEmpty_nil, Bool.not_true, Bool.false_eq_true, if_false,
        bind_eq_ok_iff, mapError_eq_ok_iff, pure_eq_ok_iff] at assembled
      obtain ⟨located, partially, rfl⟩ := assembled
      rw [Object.locatePartially_eq_ok_iff] at partially
      exact ⟨d, ran, errors, partially.1, partially.2, rfl⟩

/-- The object that a source assembles to is the object of its layout with its references
written. -/
theorem assembleStatements_eq_ok {a : Assembler} {statements : List (Nat × Statement)}
    {assembly : Assembly} (builtinOnly : a.customDirectives = [])
    (assembled : a.assembleStatements statements = .ok assembly) :
    ∃ layout, Layout.ofStatements? a.forms 0 (statements.map Prod.snd) = some layout ∧
      (layout.labels.map (·.name)).Nodup ∧
      (∀ name ∈ layout.globalNames, name ∈ layout.labels.map (·.name)) ∧
      layout.object.AllWritable ∧ assembly.object = layout.object.written := by
  obtain ⟨d, ran, errors, writable, written, -⟩ := exists_draft_of_assembleStatements assembled
  obtain ⟨layout, laidOut, object, distinct, defined, -⟩ := run_of_clean builtinOnly ran errors
  rw [object] at writable written
  exact ⟨layout, laidOut, distinct, defined, writable, written⟩

end Asm64.Assembler
