import Asm64.Proofs.Assembler.FirstPass

/-!
# Reporting every error

After an error the assembler stops, or goes on to look for more.  The second way takes the steps
that the first would take if the statements with errors were not there: a statement that fails
leaves nothing behind but its error.  So the errors that are found are those of single statements,
the first of them is the one that stops the assembler, and without the statements they are about
there are none.

`.global` directives are carried out after all other statements, whatever the mode.
-/

namespace Asm64

/-! ### Passing over steps that fail -/

section Sifting

variable {Failure State Input : Type} {step : State → Input → Except Failure State}

/-- Each input has the failure of its step, or none.  A step that fails is passed over, and the
next one starts in the same state. -/
inductive Sifted (step : State → Input → Except Failure State) :
    State → List (Input × Option Failure) → State → Prop where
  | nil {state : State} : Sifted step state [] state
  | step {state next final : State} {input : Input} {rest : List (Input × Option Failure)} :
      step state input = .ok next → Sifted step next rest final →
      Sifted step state ((input, none) :: rest) final
  | skip {state final : State} {input : Input} {failure : Failure}
      {rest : List (Input × Option Failure)} :
      step state input = .error failure → Sifted step state rest final →
      Sifted step state ((input, some failure) :: rest) final

def kept (verdicts : List (Input × Option Failure)) : List Input :=
  (verdicts.filter (·.2.isNone)).map Prod.fst

def failures (verdicts : List (Input × Option Failure)) : List Failure :=
  verdicts.filterMap Prod.snd

@[simp]
theorem kept_append (front back : List (Input × Option Failure)) :
    kept (front ++ back) = kept front ++ kept back := by
  simp [kept]

@[simp]
theorem kept_cons_none (input : Input) (rest : List (Input × Option Failure)) :
    kept ((input, none) :: rest) = input :: kept rest := rfl

@[simp]
theorem failures_cons_some (input : Input) (failure : Failure)
    (rest : List (Input × Option Failure)) :
    failures ((input, some failure) :: rest) = failure :: failures rest := rfl

theorem exists_sifted (step : State → Input → Except Failure State) (start : State)
    (inputs : List Input) :
    ∃ verdicts final, verdicts.map Prod.fst = inputs ∧ Sifted step start verdicts final := by
  induction inputs generalizing start with
  | nil => exact ⟨[], start, rfl, .nil⟩
  | cons input rest inductionHypothesis =>
      cases stepped : step start input with
      | ok next =>
          obtain ⟨verdicts, final, same, sifted⟩ := inductionHypothesis next
          exact ⟨(input, none) :: verdicts, final, by simp [same], .step stepped sifted⟩
      | error failure =>
          obtain ⟨verdicts, final, same, sifted⟩ := inductionHypothesis start
          exact ⟨(input, some failure) :: verdicts, final, by simp [same], .skip stepped sifted⟩

namespace Sifted

variable {start final : State} {verdicts : List (Input × Option Failure)}

theorem foldlM_kept (sifted : Sifted step start verdicts final) :
    (kept verdicts).foldlM step start = .ok final := by
  induction sifted with
  | nil => rfl
  | step stepped _ inductionHypothesis =>
      rw [kept_cons_none, List.foldlM_cons, stepped]
      exact inductionHypothesis
  | skip _ _ inductionHypothesis => exact inductionHypothesis

/-- A run that stops at the first failure stops at the first of all failures. -/
theorem foldlM_all (sifted : Sifted step start verdicts final) :
    (verdicts.map Prod.fst).foldlM step start =
      match failures verdicts with
      | [] => .ok final
      | first :: _ => .error first := by
  induction sifted with
  | nil => rfl
  | step stepped _ inductionHypothesis =>
      rw [List.map_cons, List.foldlM_cons, stepped]
      exact inductionHypothesis
  | skip stepped _ _ =>
      rw [List.map_cons, List.foldlM_cons, stepped]
      rfl

theorem exists_error (sifted : Sifted step start verdicts final) {input : Input}
    {failure : Failure} (member : (input, some failure) ∈ verdicts) :
    ∃ state, step state input = .error failure := by
  induction sifted with
  | nil => cases member
  | step _ _ inductionHypothesis =>
      rcases List.mem_cons.mp member with here | later
      · cases here
      · exact inductionHypothesis later
  | skip stepped _ inductionHypothesis =>
      rcases List.mem_cons.mp member with here | later
      · cases here
        exact ⟨_, stepped⟩
      · exact inductionHypothesis later

/-- An input that failed fails also if only the inputs before it whose steps were taken come
before it, whatever comes behind it. -/
theorem foldlM_failed {front back : List (Input × Option Failure)} {input : Input}
    {failure : Failure} (sifted : Sifted step start (front ++ (input, some failure) :: back) final)
    (behind : List Input) :
    (kept front ++ input :: behind).foldlM step start = .error failure := by
  induction front generalizing start with
  | nil =>
      cases sifted with
      | skip stepped _ =>
          rw [kept, List.filter_nil, List.map_nil, List.nil_append, List.foldlM_cons, stepped]
          rfl
  | cons verdict rest inductionHypothesis =>
      cases sifted with
      | step stepped sifted =>
          rw [kept_cons_none, List.cons_append, List.foldlM_cons, stepped]
          exact inductionHypothesis sifted
      | skip _ sifted => exact inductionHypothesis sifted

end Sifted

/-! Inputs of one kind may have to wait for the others. -/

/-- The list with some of its elements behind all others. -/
def putOff {Alpha : Type} (waits : Alpha → Bool) (list : List Alpha) : List Alpha :=
  list.filter (fun x => !waits x) ++ list.filter waits

theorem putOff_perm {Alpha : Type} (waits : Alpha → Bool) (list : List Alpha) :
    (putOff waits list).Perm list :=
  List.perm_append_comm.trans (List.filter_append_perm waits list)

variable {waits : Input → Bool}

theorem map_fst_putOff (verdicts : List (Input × Option Failure)) :
    (putOff (fun verdict => waits verdict.1) verdicts).map Prod.fst =
      putOff waits (verdicts.map Prod.fst) := by
  simp only [putOff, List.map_append, List.filter_map]
  rfl

theorem filter_kept (select : Input → Bool) (verdicts : List (Input × Option Failure)) :
    (kept verdicts).filter select = kept (verdicts.filter fun verdict => select verdict.1) := by
  simp only [kept, List.filter_map, List.filter_filter]
  congr 2
  funext verdict
  exact Bool.and_comm _ _

theorem putOff_kept (verdicts : List (Input × Option Failure)) :
    putOff waits (kept verdicts) = kept (putOff (fun verdict => waits verdict.1) verdicts) := by
  rw [putOff, filter_kept, filter_kept, putOff, kept_append]

theorem exists_verdicts {inputs : List Input} {front back : List (Input × Option Failure)}
    (sameFront : front.map Prod.fst = inputs.filter fun input => !waits input)
    (sameBack : back.map Prod.fst = inputs.filter waits) :
    ∃ verdicts : List (Input × Option Failure), verdicts.map Prod.fst = inputs ∧
      verdicts.filter (fun verdict => !waits verdict.1) = front ∧
      verdicts.filter (fun verdict => waits verdict.1) = back := by
  induction inputs generalizing front back with
  | nil =>
      rw [List.filter_nil, List.map_eq_nil_iff] at sameFront sameBack
      exact ⟨[], rfl, sameFront.symm, sameBack.symm⟩
  | cons input rest inductionHypothesis =>
      by_cases waiting : waits input = true
      · rw [List.filter_cons_of_neg (by simp [waiting])] at sameFront
        rw [List.filter_cons_of_pos waiting, List.map_eq_cons_iff] at sameBack
        obtain ⟨verdict, others, rfl, rfl, sameOthers⟩ := sameBack
        obtain ⟨verdicts, all, first, second⟩ := inductionHypothesis sameFront sameOthers
        refine ⟨verdict :: verdicts, by rw [List.map_cons, all], ?_, ?_⟩
        · rw [List.filter_cons_of_neg (by simp [waiting]), first]
        · rw [List.filter_cons_of_pos (by exact waiting), second]
      · rw [List.filter_cons_of_pos (by simp [waiting]), List.map_eq_cons_iff] at sameFront
        rw [List.filter_cons_of_neg waiting] at sameBack
        obtain ⟨verdict, others, rfl, rfl, sameOthers⟩ := sameFront
        obtain ⟨verdicts, all, first, second⟩ := inductionHypothesis sameOthers sameBack
        refine ⟨verdict :: verdicts, by rw [List.map_cons, all], ?_, ?_⟩
        · rw [List.filter_cons_of_pos (by simp [waiting]), first]
        · rw [List.filter_cons_of_neg (by exact waiting), second]

theorem exists_sifted_putOff (step : State → Input → Except Failure State) (start : State)
    (waits : Input → Bool) (inputs : List Input) :
    ∃ verdicts final, verdicts.map Prod.fst = inputs ∧
      Sifted step start (putOff (fun verdict => waits verdict.1) verdicts) final := by
  obtain ⟨rearranged, final, same, sifted⟩ := exists_sifted step start (putOff waits inputs)
  rw [putOff, List.map_eq_append_iff] at same
  obtain ⟨front, back, rfl, sameFront, sameBack⟩ := same
  obtain ⟨verdicts, all, rfl, rfl⟩ := exists_verdicts sameFront sameBack
  exact ⟨verdicts, final, all, sifted⟩

theorem Sifted.foldlM_putBack {start final : State} {front back : List (Input × Option Failure)}
    {input : Input} {failure : Failure}
    (sifted : Sifted step start
      (putOff (fun verdict => waits verdict.1) (front ++ (input, some failure) :: back)) final) :
    (putOff waits (kept front ++ input :: kept back)).foldlM step start = .error failure := by
  simp only [putOff, List.filter_append, List.filter_cons] at sifted ⊢
  cases waiting : waits input with
  | true =>
      simp only [waiting, Bool.not_true, Bool.false_eq_true, if_false, if_true] at sifted ⊢
      rw [← List.append_assoc] at sifted ⊢
      rw [filter_kept, filter_kept, filter_kept, ← kept_append, ← kept_append]
      exact sifted.foldlM_failed _
  | false =>
      simp only [waiting, Bool.not_false, Bool.false_eq_true, if_false, if_true, List.append_assoc,
        List.cons_append] at sifted ⊢
      rw [filter_kept]
      exact sifted.foldlM_failed _

end Sifting

namespace Assembler

def stopping (a : Assembler) : Assembler := { a with accumulateErrors := false }

def accumulating (a : Assembler) : Assembler := { a with accumulateErrors := true }

def deferred? (a : Assembler) (numbered : Nat × Statement) : Option Deferred :=
  match numbered.2.content with
  | .directive name arguments =>
    match Directive.lookup? a.customDirectives name with
    | some directive =>
      match directive.action with
      | .global => some ⟨numbered.1, directive, arguments⟩
      | _ => none
    | none => none
  | _ => none

/-- The draft with other notes of what waits for the end and of what was wrong. -/
def Draft.noting (d : Draft) (globals : List Deferred) (errors : List LineError) : Draft :=
  { d with globals, errors }

section Steps

variable {a : Assembler} {catalog : Catalog} {d : Draft}

/-! ### What a statement does with a draft -/

theorem addLabel_noting (line : Nat) (name : Text) (globals : List Deferred)
    (errors : List LineError) :
    addLabel line name (d.noting globals errors) =
      (addLabel line name d).map fun next => next.noting globals errors := by
  simp only [addLabel, Draft.noting]
  cases d.definitions.lookup name with
  | some firstLine => rfl
  | none => by_cases isName : Register.isName name = true <;> simp [isName, Except.map]

/-- A statement that is no `.global` directive takes no notice of the notes, and leaves them as they
are. -/
theorem perform_noting {line : Nat} {s : Statement} (ordinary : a.deferred? (line, s) = none)
    (globals : List Deferred) (errors : List LineError) :
    a.perform catalog line s (d.noting globals errors) =
      ⟨(a.perform catalog line s d).draft.noting globals errors,
        (a.perform catalog line s d).fault⟩ := by
  unfold perform
  cases content : s.content with
  | blank => rfl
  | label name =>
      simp only [addLabel_noting]
      cases addLabel line name d <;> rfl
  | directive name arguments =>
      simp only [deferred?, content] at ordinary
      simp only [performDirective]
      cases found : Directive.lookup? a.customDirectives name with
      | none => rfl
      | some directive =>
          simp only [found] at ordinary ⊢
          cases action : directive.action with
          | global => simp [action] at ordinary
          | _ => rfl
  | instruction mnemonic operands =>
      simp only
      cases encodeInstruction catalog s.text mnemonic operands <;> rfl
  | unknown => rfl

theorem noting_self (d : Draft) : d.noting d.globals d.errors = d := rfl

theorem object_of_apply_error {name arguments : Text} {directive : Directive} {o : Object}
    {e : Directive.Error} (known : Directive.lookup? [] name = some directive)
    (failed : (directive.apply o arguments).error = some e) :
    (directive.apply o arguments).object = o := by
  have unchanged {result : Except Directive.Flaw Object}
      (failed : (Directive.Outcome.ofExcept directive.name o result).error = some e) :
      (Directive.Outcome.ofExcept directive.name o result).object = o := by
    cases result with
    | ok changed => cases failed
    | error flaw => rfl
  obtain ⟨title, action, member, -, rfl⟩ := lookup?_nil_eq_some known
  unfold Directive.apply at failed ⊢
  cases action with
  | global | data | utf8 | align => exact unchanged failed
  | custom run => simp [Directive.builtin] at member
  | unassigned number => rfl

theorem perform_of_fault (builtinOnly : a.customDirectives = []) {line : Nat} {s : Statement}
    {fault : Fault} (failed : (a.perform catalog line s d).fault = some fault) :
    (a.perform catalog line s d).draft = d := by
  unfold perform at failed ⊢
  cases content : s.content with
  | blank => rfl
  | label name =>
      simp only [content] at failed ⊢
      cases added : addLabel line name d with
      | error _ => rfl
      | ok next => simp [added, Step.ofExcept] at failed
  | directive name arguments =>
      simp only [content, performDirective, builtinOnly] at failed ⊢
      cases known : Directive.lookup? [] name with
      | none => rfl
      | some directive =>
          simp only [known] at failed ⊢
          cases action : directive.action with
          | global => simp [action] at failed
          | _ =>
              simp only [action, Option.map_eq_some_iff] at failed ⊢
              obtain ⟨e, reported, -⟩ := failed
              rw [object_of_apply_error known reported]
  | instruction mnemonic operands =>
      simp only [content] at failed ⊢
      cases encoded : encodeInstruction catalog s.text mnemonic operands with
      | error _ => rfl
      | ok i => simp [encoded, Except.map, Step.ofExcept] at failed
  | unknown => rfl

/-! ### One step in either mode -/

variable {numbered : Nat × Statement}

theorem step_of_deferred {deferred : Deferred} (global : a.deferred? numbered = some deferred) :
    a.step catalog d numbered = .ok (d.noting (deferred :: d.globals) d.errors) := by
  unfold deferred? at global
  cases content : numbered.2.content with
  | directive name arguments =>
      simp only [content] at global
      cases found : Directive.lookup? a.customDirectives name with
      | none => simp [found] at global
      | some directive =>
          simp only [found] at global
          cases action : directive.action with
          | global =>
              simp only [action, Option.some.injEq] at global
              subst global
              simp [step, perform, content, performDirective, found, action, Draft.list,
                Draft.noting]
          | _ => simp [action] at global
  | _ => simp [content] at global

theorem list_noting (start : Nat) (text : Text) (globals : List Deferred)
    (errors : List LineError) :
    (d.noting globals errors).list start text = (d.list start text).noting globals errors := by
  unfold Draft.list Draft.noting
  dsimp only
  split <;> rfl

theorem truncate_self (d : Draft) : d.truncate d.object.code.length = d := by
  rw [Draft.truncate, List.take_length]

theorem stopping_step :
    a.stopping.step catalog d numbered =
      match (a.perform catalog numbered.1 numbered.2 d).fault with
      | none => .ok ((a.perform catalog numbered.1 numbered.2 d).draft.list
          d.object.code.length numbered.2.text)
      | some fault => .error ⟨numbered.1, fault⟩ := by
  have same : a.stopping.perform catalog numbered.1 numbered.2 d =
      a.perform catalog numbered.1 numbered.2 d := rfl
  rw [step, same]
  cases (a.perform catalog numbered.1 numbered.2 d).fault <;> rfl

theorem stopping_step_noting (ordinary : a.deferred? numbered = none) (globals : List Deferred)
    (errors : List LineError) :
    a.stopping.step catalog (d.noting globals errors) numbered =
      (a.stopping.step catalog d numbered).map fun next => next.noting globals errors := by
  rw [stopping_step, perform_noting ordinary, stopping_step]
  cases (a.perform catalog numbered.1 numbered.2 d).fault with
  | none => exact congrArg Except.ok (list_noting _ _ _ _)
  | some fault => rfl

/-- In either mode a step is one of the assembler that stops, or its error is reported.  That the
draft is as it was then holds of built-in directives only, but an assembler that stops does not
need it. -/
theorem step_eq_report (builtinOnly : a.accumulateErrors = true → a.customDirectives = []) :
    a.step catalog d numbered =
      match a.stopping.step catalog d numbered with
      | .ok next => .ok next
      | .error e => a.report e d := by
  rw [stopping_step, step]
  cases failed : (a.perform catalog numbered.1 numbered.2 d).fault with
  | none => rfl
  | some fault =>
      simp only [report]
      cases accumulate : a.accumulateErrors with
      | true =>
          rw [perform_of_fault (builtinOnly accumulate) failed]
          exact congrArg Except.ok (truncate_self _)
      | false => rfl

theorem finishGlobal_eq_report (deferred : Deferred) :
    a.finishGlobal d deferred =
      match a.stopping.finishGlobal d deferred with
      | .ok next => .ok next
      | .error e => a.report e d := by
  unfold finishGlobal
  dsimp only
  cases (deferred.directive.apply d.object deferred.arguments).error <;> rfl

theorem stopping_finishGlobal_noting (deferred : Deferred) (globals : List Deferred)
    (errors : List LineError) :
    a.stopping.finishGlobal (d.noting globals errors) deferred =
      (a.stopping.finishGlobal d deferred).map fun next => next.noting globals errors := by
  unfold finishGlobal Draft.noting
  dsimp only
  cases (deferred.directive.apply d.object deferred.arguments).error <;> rfl

/-! ### Statements in the order in which they are carried out -/

/-- Carries out a statement.  `.global` directives are not put off here. -/
def carryOut (a : Assembler) (d : Draft) (numbered : Nat × Statement) : Except LineError Draft :=
  match a.deferred? numbered with
  | some deferred => a.finishGlobal d deferred
  | none => a.step a.forms d numbered

def isGlobal (a : Assembler) (numbered : Nat × Statement) : Bool := (a.deferred? numbered).isSome

theorem stopping_carryOut_noting (globals : List Deferred) (errors : List LineError) :
    a.stopping.carryOut (d.noting globals errors) numbered =
      (a.stopping.carryOut d numbered).map fun next => next.noting globals errors := by
  unfold carryOut
  cases global : a.stopping.deferred? numbered with
  | some deferred => exact stopping_finishGlobal_noting deferred globals errors
  | none => exact stopping_step_noting global globals errors

theorem carryOut_eq_report (builtinOnly : a.accumulateErrors = true → a.customDirectives = []) :
    a.carryOut d numbered =
      match a.stopping.carryOut d numbered with
      | .ok next => .ok next
      | .error e => a.report e d := by
  have same : a.stopping.deferred? numbered = a.deferred? numbered := rfl
  unfold carryOut
  rw [same]
  cases a.deferred? numbered with
  | some deferred => exact finishGlobal_eq_report deferred
  | none => exact step_eq_report builtinOnly

theorem errors_of_carryOut {next : Draft} (carried : a.stopping.carryOut d numbered = .ok next) :
    next.errors = d.errors := by
  have noted : a.stopping.carryOut (d.noting d.globals d.errors) numbered = _ :=
    stopping_carryOut_noting d.globals d.errors
  rw [noting_self, carried] at noted
  have same : next = next.noting d.globals d.errors := Except.ok.inj noted
  rw [same]
  rfl

theorem line_of_carryOut {e : LineError} (failed : a.stopping.carryOut d numbered = .error e) :
    e.line = numbered.1 := by
  unfold carryOut at failed
  cases global : a.stopping.deferred? numbered with
  | none =>
      simp only [global, stopping_step] at failed
      split at failed <;> cases failed
      rfl
  | some deferred =>
      have sameLine : deferred.line = numbered.1 := by
        unfold deferred? at global
        split at global
        · split at global
          · split at global <;> cases global
            rfl
          · cases global
        · cases global
      simp only [global, finishGlobal] at failed
      split at failed <;> cases failed
      exact sameLine

theorem foldlM_of_stopping (builtinOnly : a.customDirectives = [])
    {statements : List (Nat × Statement)} {final : Draft}
    (carried : statements.foldlM a.stopping.carryOut d = .ok final) :
    statements.foldlM a.carryOut d = .ok final := by
  refine (foldlM_eq_ok_of_agree (fun _ => True) ?_ carried trivial).2
  intro state numbered next first _
  exact ⟨trivial, by rw [carryOut_eq_report (fun _ => builtinOnly), first]⟩

theorem carryOut_noting (builtinOnly : a.accumulateErrors = true → a.customDirectives = [])
    (globals : List Deferred) :
    a.carryOut (d.noting globals d.errors) numbered =
      (a.carryOut d numbered).map fun next => next.noting globals next.errors := by
  rw [carryOut_eq_report builtinOnly, stopping_carryOut_noting, carryOut_eq_report builtinOnly]
  cases carried : a.stopping.carryOut d numbered with
  | ok next =>
      simp only [Except.map, errors_of_carryOut carried]
  | error e =>
      simp only [Except.map, report]
      cases a.accumulateErrors <;> rfl

/-- What was put off is what is left of the `.global` directives. -/
theorem foldlM_step_eq (builtinOnly : a.accumulateErrors = true → a.customDirectives = [])
    (statements : List (Nat × Statement)) (globals : List Deferred) :
    statements.foldlM (a.step a.forms) (d.noting globals d.errors) =
      ((statements.filter fun numbered => !a.isGlobal numbered).foldlM a.carryOut d).map
        fun next => next.noting ((statements.filterMap a.deferred?).reverse ++ globals)
          next.errors := by
  induction statements generalizing d globals with
  | nil => rfl
  | cons numbered rest inductionHypothesis =>
      cases global : a.deferred? numbered with
      | some deferred =>
          rw [List.foldlM_cons, step_of_deferred global, List.filter_cons_of_neg
            (by simp [isGlobal, global]), List.filterMap_cons_some global, List.reverse_cons,
            List.append_assoc]
          exact inductionHypothesis (d := d) (deferred :: globals)
      | none =>
          have carried : a.step a.forms (d.noting globals d.errors) numbered =
              a.carryOut (d.noting globals d.errors) numbered := by
            rw [carryOut, global]
          rw [List.foldlM_cons, carried, carryOut_noting builtinOnly,
            List.filter_cons_of_pos (by simp [isGlobal, global]), List.foldlM_cons,
            List.filterMap_cons_none global]
          cases a.carryOut d numbered with
          | error e => rfl
          | ok next => exact inductionHypothesis globals

theorem foldlM_finishGlobal_eq (builtinOnly : a.accumulateErrors = true → a.customDirectives = [])
    (statements : List (Nat × Statement)) (globals : List Deferred) :
    (statements.filterMap a.deferred?).foldlM a.finishGlobal (d.noting globals d.errors) =
      ((statements.filter a.isGlobal).foldlM a.carryOut d).map
        fun next => next.noting globals next.errors := by
  induction statements generalizing d with
  | nil => rfl
  | cons numbered rest inductionHypothesis =>
      cases global : a.deferred? numbered with
      | none =>
          rw [List.filterMap_cons_none global, List.filter_cons_of_neg (by simp [isGlobal, global])]
          exact inductionHypothesis
      | some deferred =>
          have carried : a.finishGlobal (d.noting globals d.errors) deferred =
              a.carryOut (d.noting globals d.errors) numbered := by
            rw [carryOut, global]
          rw [List.filterMap_cons_some global, List.foldlM_cons, carried,
            carryOut_noting builtinOnly, List.filter_cons_of_pos (by simp [isGlobal, global]),
            List.foldlM_cons]
          cases a.carryOut d numbered with
          | error e => rfl
          | ok next => exact inductionHypothesis

/-- What becomes of a draft when all statements have been carried out. -/
def finish (d : Draft) : Except Error Assembly := do
  if !d.errors.isEmpty then .error (.lines d.errors.reverse)
  let object ← d.object.locatePartially.mapError .locate
  return ⟨object, Listing.render object.code d.listing.reverse⟩

/-- Assembling is one run over the statements in their order, with `.global` directives last. -/
theorem assembleStatements_eq (builtinOnly : a.accumulateErrors = true → a.customDirectives = [])
    (statements : List (Nat × Statement)) :
    a.assembleStatements statements =
      ((putOff a.isGlobal statements).foldlM a.carryOut .empty).mapError .line >>= finish := by
  have ran : a.run statements =
      ((putOff a.isGlobal statements).foldlM a.carryOut .empty).map fun final =>
        final.noting (statements.filterMap a.deferred?).reverse final.errors := by
    have stepped := foldlM_step_eq (d := .empty) builtinOnly statements []
    rw [List.append_nil] at stepped
    change (statements.foldlM (a.step a.forms) (Draft.empty.noting [] Draft.empty.errors) >>=
      fun d => d.globals.reverse.foldlM a.finishGlobal d) = _
    rw [stepped, putOff, List.foldlM_append]
    cases (statements.filter fun numbered => !a.isGlobal numbered).foldlM a.carryOut .empty with
    | error e => rfl
    | ok d =>
        have finished := foldlM_finishGlobal_eq (d := d) builtinOnly statements
          (statements.filterMap a.deferred?).reverse
        change (statements.filterMap a.deferred?).reverse.reverse.foldlM a.finishGlobal
          (d.noting (statements.filterMap a.deferred?).reverse d.errors) = _
        rw [List.reverse_reverse, finished]
        rfl
  rw [assembleStatements, ran]
  cases (putOff a.isGlobal statements).foldlM a.carryOut .empty <;> rfl

/-! ### Both modes -/

theorem assembleStatements_of_ok (builtinOnly : a.customDirectives = [])
    {statements : List (Nat × Statement)} {final : Draft}
    (carried : (putOff a.isGlobal statements).foldlM a.stopping.carryOut .empty = .ok final)
    (accumulateErrors : Bool) :
    { a with accumulateErrors }.assembleStatements statements = finish final := by
  have steps := foldlM_of_stopping (a := { a with accumulateErrors }) builtinOnly carried
  calc { a with accumulateErrors }.assembleStatements statements
    _ = ((putOff a.isGlobal statements).foldlM { a with accumulateErrors }.carryOut
          .empty).mapError .line >>= finish :=
        assembleStatements_eq (a := { a with accumulateErrors }) (fun _ => builtinOnly) statements
    _ = finish final := by rw [steps]; rfl

theorem assembleStatements_of_error (builtinOnly : a.customDirectives = [])
    {statements : List (Nat × Statement)} {e : LineError}
    (failed : (putOff a.isGlobal statements).foldlM a.stopping.carryOut .empty = .error e) :
    a.stopping.assembleStatements statements = .error (.line e) := by
  calc a.stopping.assembleStatements statements
    _ = ((putOff a.isGlobal statements).foldlM a.stopping.carryOut .empty).mapError .line >>=
          finish := assembleStatements_eq (a := a.stopping) (fun _ => builtinOnly) statements
    _ = .error (.line e) := by rw [failed]; rfl

theorem finish_of_clean {failure : Error} (clean : d.errors = [])
    (failed : finish d = .error failure) : ∃ reason, failure = .locate reason := by
  simp only [finish, clean, List.isEmpty_nil, Bool.not_true, Bool.false_eq_true, if_false,
    bind_eq_error_iff, mapError_eq_error_iff] at failed
  rcases failed with ⟨reason, -, rfl⟩ | ⟨object, -, impossible⟩
  · exact ⟨reason, rfl⟩
  · cases impossible

section Verdicts

variable {verdicts : List ((Nat × Statement) × Option LineError)} {final : Draft}
  (sifted : Sifted a.stopping.carryOut d verdicts final)

include sifted

theorem errors_of_sifted : final.errors = d.errors := by
  induction sifted with
  | nil => rfl
  | step carried _ inductionHypothesis =>
      rw [inductionHypothesis, errors_of_carryOut carried]
  | skip _ _ inductionHypothesis => exact inductionHypothesis

/-- The assembler that accumulates passes over the statements that fail, and notes the failures. -/
theorem foldlM_accumulating (builtinOnly : a.customDirectives = []) (globals : List Deferred)
    (errors : List LineError) :
    (verdicts.map Prod.fst).foldlM a.accumulating.carryOut (d.noting globals errors) =
      .ok (final.noting globals ((failures verdicts).reverse ++ errors)) := by
  have same : a.accumulating.stopping = a.stopping := rfl
  induction sifted generalizing errors with
  | nil => rfl
  | step carried _ inductionHypothesis =>
      rw [List.map_cons, List.foldlM_cons,
        carryOut_eq_report (a := a.accumulating) (fun _ => builtinOnly), same,
        stopping_carryOut_noting, carried]
      exact inductionHypothesis errors
  | @skip _ _ _ e _ failed _ inductionHypothesis =>
      rw [List.map_cons, List.foldlM_cons,
        carryOut_eq_report (a := a.accumulating) (fun _ => builtinOnly), same,
        stopping_carryOut_noting, failed]
      rw [failures_cons_some, List.reverse_cons, List.append_assoc]
      exact inductionHypothesis (e :: errors)

end Verdicts

/-- Whether there are failures, and which is the first of them, decides how either mode ends. -/
theorem assembleStatements_of_sifted (builtinOnly : a.customDirectives = [])
    {verdicts : List ((Nat × Statement) × Option LineError)} {final : Draft}
    (sifted : Sifted a.stopping.carryOut .empty
      (putOff (fun verdict => a.isGlobal verdict.1) verdicts) final) :
    (failures (putOff (fun verdict => a.isGlobal verdict.1) verdicts) = [] ∧
      a.stopping.assembleStatements (verdicts.map Prod.fst) = finish final ∧
      a.accumulating.assembleStatements (verdicts.map Prod.fst) = finish final) ∨
    ∃ first others,
      failures (putOff (fun verdict => a.isGlobal verdict.1) verdicts) = first :: others ∧
      a.stopping.assembleStatements (verdicts.map Prod.fst) = .error (.line first) ∧
      a.accumulating.assembleStatements (verdicts.map Prod.fst) =
        .error (.lines (first :: others)) := by
  have stopped := sifted.foldlM_all
  have accumulated := foldlM_accumulating sifted builtinOnly [] []
  rw [map_fst_putOff] at stopped accumulated
  rw [List.append_nil] at accumulated
  cases found : failures (putOff (fun verdict => a.isGlobal verdict.1) verdicts) with
  | nil =>
      rw [found] at stopped
      exact Or.inl ⟨rfl, assembleStatements_of_ok builtinOnly stopped false,
        assembleStatements_of_ok builtinOnly stopped true⟩
  | cons first others =>
      rw [found] at stopped accumulated
      refine Or.inr ⟨first, others, rfl, assembleStatements_of_error builtinOnly stopped, ?_⟩
      calc a.accumulating.assembleStatements (verdicts.map Prod.fst)
        _ = ((putOff a.isGlobal (verdicts.map Prod.fst)).foldlM a.accumulating.carryOut
              (Draft.empty.noting [] [])).mapError .line >>= finish :=
            assembleStatements_eq (a := a.accumulating) (fun _ => builtinOnly) _
        _ = finish (final.noting [] (first :: others).reverse) := by rw [accumulated]; rfl
        _ = .error (.lines (first :: others)) := by
            simp [finish, Draft.noting, bind, Except.bind]

end Steps

theorem accumulating_assemble_eq_ok_iff {a : Assembler} (builtinOnly : a.customDirectives = [])
    {source : Text} {assembly : Assembly} :
    a.accumulating.assemble source = .ok assembly ↔ a.stopping.assemble source = .ok assembly := by
  obtain ⟨verdicts, final, same, sifted⟩ := exists_sifted_putOff a.stopping.carryOut .empty
    a.isGlobal (Statement.ofSource source)
  have outcome := assembleStatements_of_sifted builtinOnly sifted
  rw [same] at outcome
  unfold assemble
  rcases outcome with ⟨-, stopped, accumulated⟩ | ⟨first, others, -, stopped, accumulated⟩
  · rw [stopped, accumulated]
  · simp [stopped, accumulated]

/-- Reporting every error and stopping at the first come to the same object and listing, or both
fail.  If labels are the reason, it is the same one.  Otherwise the errors are those of single
statements, and the first of them is the one that stops.  Without these statements there are no
such errors, and each of them, if it alone is put back, fails with its error. -/
theorem accumulated_errors_are_complete {a : Assembler} (builtinOnly : a.customDirectives = [])
    (source : Text) :
    (∀ assembly, a.accumulating.assemble source = .ok assembly ↔
      a.stopping.assemble source = .ok assembly) ∧
    ∀ failure, a.accumulating.assemble source = .error failure →
      (∃ reason, failure = .locate reason ∧ a.stopping.assemble source = .error failure) ∨
      ∃ first others, failure = .lines (first :: others) ∧
        a.stopping.assemble source = .error (.line first) ∧
        ∃ verdicts : List ((Nat × Statement) × Option LineError),
          verdicts.map Prod.fst = Statement.ofSource source ∧
          (failures verdicts).Perm (first :: others) ∧
          (∀ accumulateErrors failure,
            { a with accumulateErrors }.assembleStatements (kept verdicts) = .error failure →
              ∃ reason, failure = .locate reason) ∧
          ∀ front numbered e back, verdicts = front ++ (numbered, some e) :: back →
            e.line = numbered.1 ∧
            a.stopping.assembleStatements (kept front ++ numbered :: kept back) =
              .error (.line e) := by
  obtain ⟨verdicts, final, same, sifted⟩ := exists_sifted_putOff a.stopping.carryOut .empty
    a.isGlobal (Statement.ofSource source)
  have clean : final.errors = [] := errors_of_sifted sifted
  have outcome := assembleStatements_of_sifted builtinOnly sifted
  rw [same] at outcome
  refine ⟨fun _ => accumulating_assemble_eq_ok_iff builtinOnly, ?_⟩
  unfold assemble
  rcases outcome with ⟨-, stopped, accumulated⟩ | ⟨first, others, found, stopped, accumulated⟩
  · rw [stopped, accumulated]
    intro failure failed
    obtain ⟨reason, rfl⟩ := finish_of_clean clean failed
    exact Or.inl ⟨reason, rfl, failed⟩
  · rw [stopped, accumulated]
    rintro failure ⟨⟩
    refine Or.inr ⟨first, others, rfl, rfl, verdicts, same, ?_, ?_, ?_⟩
    · rw [← found]
      exact ((putOff_perm _ verdicts).filterMap Prod.snd).symm
    · intro accumulateErrors failure failed
      have carried := sifted.foldlM_kept
      rw [← putOff_kept] at carried
      rw [assembleStatements_of_ok builtinOnly carried] at failed
      exact finish_of_clean clean failed
    · rintro front numbered e back rfl
      constructor
      · have member : (numbered, some e) ∈ putOff (fun verdict => a.isGlobal verdict.1)
            (front ++ (numbered, some e) :: back) :=
          (putOff_perm _ _).mem_iff.mpr (by simp)
        obtain ⟨d, failed⟩ := sifted.exists_error member
        exact line_of_carryOut failed
      · exact assembleStatements_of_error builtinOnly sifted.foldlM_putBack

/-- The second line has a label that is defined already and one that is a register. -/
def sampleWithErrors : Text := ascii ".global rax\na: a: rax: .db8 7\n.global a\n.db8 1 256"

/-- Three statements that fail at once, and one that fails at the end because of one of them. -/
theorem accumulated_errors_are_complete_sample :
    ∃ first others, standard.accumulating.assemble sampleWithErrors =
        .error (.lines (first :: others)) ∧
      (first :: others).map (·.line) = [2, 2, 4, 1] ∧
      standard.stopping.assemble sampleWithErrors = .error (.line first) ∧
      ∃ verdicts : List ((Nat × Statement) × Option LineError),
        verdicts.map Prod.fst = Statement.ofSource sampleWithErrors ∧
        (failures verdicts).Perm (first :: others) := by
  have evaluated : (match standard.accumulating.assemble sampleWithErrors with
      | .error (.lines errors) => errors.map (·.line)
      | _ => []) = [2, 2, 4, 1] := by decide +kernel
  split at evaluated
  · rename_i errors failed
    have complete := (accumulated_errors_are_complete (a := standard) rfl sampleWithErrors).2 _
      failed
    rcases complete with ⟨reason, impossible, -⟩ | ⟨first, others, same, stopped, verdicts, all,
      found, -⟩
    · cases impossible
    · cases same
      exact ⟨first, others, failed, evaluated, stopped, verdicts, all, found⟩
  · simp at evaluated

end Assembler

end Asm64
