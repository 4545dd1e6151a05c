import Asm64.Proofs.Assembler.FirstPass
import Asm64.Proofs.Instruction.ParsedForm

/-!
# Assembling never contradicts itself

Some failures are no fault of the source: a form that disagrees with its own operands, a directive
without an action, a field outside the code.  With a catalog that has been parsed and without
directives of a caller's own, no source leads to one of them.  Each statement is performed from a
draft that has noted none so far, and leaves such a draft behind.
-/

namespace Asm64

/-! ### Catalogs that have been parsed -/

namespace Catalog

theorem checked_of_parseLines {seen catalog : Catalog} {number : Nat} {lines : List Text}
    (parsed : parseLines seen number lines = .ok catalog)
    (checkedSeen : ∀ entry ∈ seen, entry.form.Checked) :
    ∀ entry ∈ catalog, entry.form.Checked := by
  induction lines generalizing seen number with
  | nil =>
      cases parsed
      exact fun entry member => checkedSeen entry (List.mem_reverse.mp member)
  | cons line rest inductionHypothesis =>
      rw [parseLines] at parsed
      split at parsed
      · cases parsed
      · dsimp only at parsed
        split at parsed
        · exact inductionHypothesis parsed checkedSeen
        · split at parsed
          · cases parsed
          · rename_i entry entryParsed
            obtain ⟨form, formParsed, rfl⟩ := map_eq_ok_iff.mp entryParsed
            apply inductionHypothesis parsed
            rw [List.forall_mem_cons]
            exact ⟨Form.checked_of_parse formParsed, checkedSeen⟩

theorem checked_standard : ∀ entry ∈ standard, entry.form.Checked := by
  have forms : ∀ f ∈ defaultForms,
      f.mismatch? = none ∧ f.encoding.opcode ≠ [] ∧ f.encoding.opcode.length ≤ 3 := by
    decide +kernel
  intro entry member
  obtain ⟨f, inForms, rfl⟩ := List.mem_map.mp member
  obtain ⟨matched, nonempty, short⟩ := forms f inForms
  exact ⟨matched, nonempty, short⟩

end Catalog

theorem Assembler.checked_forms {a : Assembler} {text : Text}
    (parsed : Catalog.parse text = .ok a.catalog) : ∀ entry ∈ a.forms, entry.form.Checked := by
  unfold forms
  split
  · exact Catalog.checked_standard
  · exact Catalog.checked_of_parseLines parsed (by simp)

/-! ### Directives -/

/-- Whether the directive itself is broken. -/
def Directive.Flaw.isInconsistency : Flaw → Bool
  | unassigned _ => true
  | _ => false

namespace Directive

theorem error_of_ofExcept {name : Text} {o : Object} {result : Except Flaw Object} {e : Error}
    (failed : (Outcome.ofExcept name o result).error = some e) : result = .error e.flaw := by
  cases result with
  | ok changed => cases failed
  | error flaw =>
      cases failed
      rfl

theorem consistent_of_applyGlobal {o : Object} {arguments : Text} {flaw : Flaw}
    (failed : applyGlobal o arguments = .error flaw) : flaw.isInconsistency = false := by
  unfold applyGlobal at failed
  split at failed
  · cases failed
    rfl
  · split at failed <;> cases failed
    rfl

theorem consistent_of_applyData {name arguments : Text} {width : Width} {o : Object} {flaw : Flaw}
    (failed : applyData name width o arguments = .error flaw) : flaw.isInconsistency = false := by
  unfold applyData at failed
  split at failed
  · cases failed
    rfl
  · rcases bind_eq_error_iff.mp failed with unread | ⟨values, -, impossible⟩
    · obtain ⟨field, -, failed⟩ := mapM_eq_error unread
      unfold readValue at failed
      split at failed
      · cases failed
        rfl
      · split at failed <;> cases failed
        rfl
    · cases impossible

theorem consistent_of_applyUtf8 {o : Object} {arguments : Text} {flaw : Flaw}
    (failed : applyUtf8 o arguments = .error flaw) : flaw.isInconsistency = false := by
  unfold applyUtf8 at failed
  split at failed <;> cases failed
  rfl

theorem consistent_of_applyAlign {alignment : Nat} {o : Object} {arguments : Text} {flaw : Flaw}
    (failed : applyAlign alignment o arguments = .error flaw) : flaw.isInconsistency = false := by
  unfold applyAlign at failed
  split at failed <;> cases failed
  rfl

theorem consistent_of_apply {d : Directive} {o : Object} {arguments : Text} {e : Error}
    (assigned : ∀ number, d.action ≠ .unassigned number)
    (failed : (d.apply o arguments).error = some e) : e.flaw.isInconsistency = false := by
  unfold apply at failed
  cases action : d.action with
  | global =>
      simp only [action] at failed
      exact consistent_of_applyGlobal (error_of_ofExcept failed)
  | data width =>
      simp only [action] at failed
      exact consistent_of_applyData (error_of_ofExcept failed)
  | utf8 =>
      simp only [action] at failed
      exact consistent_of_applyUtf8 (error_of_ofExcept failed)
  | align alignment =>
      simp only [action] at failed
      exact consistent_of_applyAlign (error_of_ofExcept failed)
  | custom run =>
      simp only [action, Option.map_eq_some_iff] at failed
      obtain ⟨reason, -, rfl⟩ := failed
      rfl
  | unassigned number => exact absurd action (assigned number)

theorem assigned_of_lookup? {name : Text} {d : Directive} (known : lookup? [] name = some d) :
    ∀ number, d.action ≠ .unassigned number := by
  obtain ⟨title, action, member, -, rfl⟩ := Assembler.lookup?_nil_eq_some known
  rintro number rfl
  simp [builtin] at member

end Directive

namespace Assembler

/-- Whether a form, an operand or a directive contradicts itself. -/
def Fault.isInconsistency : Fault → Bool
  | directive error => error.flaw.isInconsistency
  | encode _ error => error.isInconsistency
  | _ => false

/-- Whether it is not the source that is wrong. -/
def Error.isInconsistency : Error → Bool
  | line error => error.fault.isInconsistency
  | lines errors => errors.any fun error => error.fault.isInconsistency
  | locate error => error.isInconsistency
  | listing _ => false

/-! ### Single statements -/

theorem consistent_of_readOperand {text : Text} {fault : Fault}
    (failed : readOperand text = .error fault) : fault.isInconsistency = false := by
  unfold readOperand at failed
  split at failed
  · cases failed
    rfl
  · split at failed
    · split at failed <;> cases failed
      rfl
    · cases failed

theorem consistent_of_encodeInstruction {catalog : Catalog}
    (checked : ∀ entry ∈ catalog, entry.form.Checked) {statement mnemonic : Text}
    {texts : List Text} {fault : Fault}
    (failed : encodeInstruction catalog statement mnemonic texts = .error fault) :
    fault.isInconsistency = false := by
  simp only [encodeInstruction, bind_eq_error_iff] at failed
  rcases failed with unread | ⟨operands, -, failed⟩
  · obtain ⟨text, -, failed⟩ := mapM_eq_error unread
    exact consistent_of_readOperand failed
  · split at failed
    · rename_i entry found
      obtain ⟨reason, failed, rfl⟩ := mapError_eq_error_iff.mp failed
      have accepts := List.find?_some found
      rw [Form.accepts, Bool.and_eq_true] at accepts
      have encoded := Form.encode_of_accepted (checked entry (List.mem_of_find?_eq_some found))
        accepts.2
      rcases encoded with ⟨i, encoded⟩ | ⟨r, encoded⟩
      · rw [encoded] at failed
        cases failed
      · rw [encoded] at failed
        cases failed
        rfl
    · split at failed <;> cases failed <;> rfl

section Statements

variable {a : Assembler} {catalog : Catalog} {d : Draft}
  (checked : ∀ entry ∈ catalog, entry.form.Checked) (builtinOnly : a.customDirectives = [])

include builtinOnly in
theorem consistent_of_performDirective {line : Nat} {name arguments : Text} {fault : Fault}
    (failed : (a.performDirective line name arguments d).fault = some fault) :
    fault.isInconsistency = false := by
  cases known : Directive.lookup? a.customDirectives name with
  | none =>
      simp only [performDirective, known] at failed
      cases failed
      rfl
  | some directive =>
      by_cases global : directive.action = .global
      · rw [performDirective_of_global known global] at failed
        cases failed
      · rw [performDirective_of_not_global known global] at failed
        obtain ⟨e, reason, rfl⟩ := Option.map_eq_some_iff.mp failed
        rw [builtinOnly] at known
        exact Directive.consistent_of_apply (Directive.assigned_of_lookup? known) reason

include checked builtinOnly in
theorem consistent_of_perform {line : Nat} {s : Statement} {fault : Fault}
    (failed : (a.perform catalog line s d).fault = some fault) :
    fault.isInconsistency = false := by
  -- What changes nothing if it fails has the fault of the attempt.
  have fault_of_ofExcept {result : Except Fault Draft}
      (failed : (Step.ofExcept d result).fault = some fault) : result = .error fault := by
    cases result <;> cases failed
    rfl
  unfold perform at failed
  cases content : s.content with
  | blank =>
      simp only [content] at failed
      cases failed
  | label name =>
      simp only [content] at failed
      have added := fault_of_ofExcept failed
      unfold addLabel at added
      split at added
      · cases added
        rfl
      · split at added <;> cases added
        rfl
  | directive name arguments =>
      simp only [content] at failed
      exact consistent_of_performDirective builtinOnly failed
  | instruction mnemonic texts =>
      simp only [content] at failed
      cases encoded : encodeInstruction catalog s.text mnemonic texts with
      | ok i =>
          rw [encoded] at failed
          cases failed
      | error reason =>
          rw [encoded] at failed
          cases failed
          exact consistent_of_encodeInstruction checked encoded
  | unknown =>
      simp only [content] at failed
      cases failed
      rfl

/-! ### Whole sources -/

/-- No inconsistency has been noted, and the directives that wait are those they should be. -/
structure Draft.Consistent (d : Draft) : Prop where
  errors : ∀ e ∈ d.errors, e.fault.isInconsistency = false
  waiting : ∀ deferred ∈ d.globals, deferred.directive.action = .global

theorem ends_report {e : LineError} (consistent : d.Consistent)
    (isConsistent : e.fault.isInconsistency = false) :
    Ends Draft.Consistent (·.fault.isInconsistency = false) (a.report e d) := by
  unfold report
  split
  · exact ⟨List.forall_mem_cons.mpr ⟨isConsistent, consistent.errors⟩, consistent.waiting⟩
  · exact isConsistent

theorem perform_waiting (waiting : ∀ deferred ∈ d.globals, deferred.directive.action = .global)
    (line : Nat) (s : Statement) :
    ∀ deferred ∈ (a.perform catalog line s d).draft.globals,
      deferred.directive.action = .global := by
  unfold perform
  split
  · exact waiting
  · rename_i name _
    cases added : addLabel line name d with
    | error fault => exact waiting
    | ok next =>
        unfold addLabel at added
        split at added
        · cases added
        · split at added <;> cases added
          exact waiting
  · rename_i name arguments _
    cases known : Directive.lookup? a.customDirectives name with
    | none =>
        simp only [performDirective, known]
        exact waiting
    | some directive =>
        by_cases global : directive.action = .global
        · rw [performDirective_of_global known global]
          exact List.forall_mem_cons.mpr ⟨global, waiting⟩
        · rw [performDirective_of_not_global known global]
          exact waiting
  · rename_i mnemonic texts _
    cases encodeInstruction catalog s.text mnemonic texts <;> exact waiting
  · exact waiting

theorem consistent_perform (consistent : d.Consistent) (line : Nat) (s : Statement) :
    (a.perform catalog line s d).draft.Consistent where
  errors := by
    rw [perform_errors]
    exact consistent.errors
  waiting := perform_waiting consistent.waiting line s

include checked builtinOnly in
theorem ends_step (consistent : d.Consistent) (numbered : Nat × Statement) :
    Ends Draft.Consistent (·.fault.isInconsistency = false) (a.step catalog d numbered) := by
  have performed : (a.perform catalog numbered.1 numbered.2 d).draft.Consistent :=
    consistent_perform consistent numbered.1 numbered.2
  unfold step
  dsimp only
  split
  · unfold Draft.list
    split
    · exact ⟨performed.errors, performed.waiting⟩
    · exact performed
  · rename_i fault failed
    refine (ends_report performed (consistent_of_perform checked builtinOnly failed)).map ?_
    exact fun draft reported => ⟨reported.errors, reported.waiting⟩

theorem ends_finishGlobal {deferred : Deferred} (consistent : d.Consistent)
    (global : deferred.directive.action = .global) :
    Ends Draft.Consistent (·.fault.isInconsistency = false) (a.finishGlobal d deferred) := by
  unfold finishGlobal
  dsimp only
  split
  · exact ⟨consistent.errors, consistent.waiting⟩
  · rename_i e failed
    apply ends_report consistent
    exact Directive.consistent_of_apply (by simp [global]) failed

end Statements

section Sources

variable {a : Assembler} (checked : ∀ entry ∈ a.forms, entry.form.Checked)
  (builtinOnly : a.customDirectives = []) (statements : List (Nat × Statement))

include checked builtinOnly

/-- No statement of a source notes an inconsistency or stops with one. -/
theorem ends_run :
    Ends Draft.Consistent (·.fault.isInconsistency = false) (a.run statements) := by
  have stepped : Ends Draft.Consistent (·.fault.isInconsistency = false)
      (statements.foldlM (a.step a.forms) .empty) := by
    apply Ends.foldlM
    · exact ⟨by simp [Draft.empty], by simp [Draft.empty]⟩
    · exact fun numbered _ d consistent => ends_step checked builtinOnly consistent numbered
  refine stepped.bind fun drafted consistent => ?_
  apply Ends.foldlM consistent
  intro deferred member d consistentDraft
  exact ends_finishGlobal consistentDraft
    (consistent.waiting deferred (List.mem_reverse.mp member))

/-- Nor is the object inconsistent that is located in the end. -/
theorem consistent_of_assembleStatements
    (addressable : ∀ d, a.run statements = .ok d → Addressable d.object.code.length) {e : Error}
    (failed : a.assembleStatements statements = .error e) : e.isInconsistency = false := by
  have ran := ends_run checked builtinOnly statements
  simp only [assembleStatements, bind_eq_error_iff, mapError_eq_error_iff, mapError_eq_ok_iff]
    at failed
  rcases failed with ⟨reason, stopped, rfl⟩ | ⟨d, reached, failed⟩
  · exact ran.of_error stopped
  · rw [reached] at ran
    cases errors : d.errors with
    | cons error rest =>
        simp only [errors, List.isEmpty_cons, Bool.not_false, if_true, bind, Except.bind] at failed
        cases failed
        simp only [Error.isInconsistency, List.any_eq_false]
        intro error member
        have noted := ran.errors error (by rw [errors]; exact List.mem_reverse.mp member)
        simp [noted]
    | nil =>
        obtain ⟨layout, laidOut, object, -, -⟩ := run_of_clean builtinOnly reached errors
        obtain ⟨consecutive, -⟩ := Layout.ofStatements?_eq_some_iff.mp laidOut
        have short := addressable d reached
        have inCode : ∀ r ∈ d.object.relocations, r.InCode d.object.code.length := by
          rw [object]
          exact fun r member => (consecutive.object_inBounds r member).inCode
        simp only [errors, List.isEmpty_nil, Bool.not_true, Bool.false_eq_true, if_false,
          bind_eq_error_iff, mapError_eq_error_iff] at failed
        rcases failed with ⟨reason, unlocated, rfl⟩ | ⟨_, -, impossible⟩
        · exact Object.consistent_of_locateWith short inCode unlocated
        · cases impossible

end Sources

end Assembler

end Asm64
