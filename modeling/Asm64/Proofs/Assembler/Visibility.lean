import Asm64.Proofs.Assembler.Accumulation

/-!
# Where `.global` directives stand

`.global` directives are carried out when all labels are known.  Making a label public leaves the
other labels alone, and doing it again changes nothing.  So a source assembles to the same object
with the same listing wherever its `.global` directives stand, and however often they are repeated.

The lines on which statements stand differ then.  They are looked at only when something is wrong.
-/

namespace Asm64

/-! ### Steps in any order -/

section Commuting

variable {State Input : Type} [DecidableEq Input] {step : State → Input → State}
  [RightCommutative step]
  (again : ∀ state input, step (step state input) input = step state input)

include again

theorem foldl_dedup (inputs : List Input) (start : State) :
    inputs.dedup.foldl step start = inputs.foldl step start := by
  induction inputs generalizing start with
  | nil => rfl
  | cons input rest inductionHypothesis =>
      by_cases repeated : input ∈ rest
      · -- The step that comes again is moved to the front, next to the first one.
        have moved := List.perm_cons_erase repeated
        rw [List.dedup_cons_of_mem repeated, inductionHypothesis, List.foldl_cons,
          moved.foldl_eq start, moved.foldl_eq (step start input), List.foldl_cons,
          List.foldl_cons, again]
      · rw [List.dedup_cons_of_notMem repeated, List.foldl_cons, List.foldl_cons,
          inductionHypothesis]

theorem foldl_eq_of_mem_iff {inputs others : List Input}
    (same : ∀ input, input ∈ inputs ↔ input ∈ others) (start : State) :
    inputs.foldl step start = others.foldl step start := by
  have rearranged : inputs.dedup.Perm others.dedup := by
    rw [List.perm_ext_iff_of_nodup (List.nodup_dedup inputs) (List.nodup_dedup others)]
    intro input
    rw [List.mem_dedup, List.mem_dedup, same]
  rw [← foldl_dedup again inputs, rearranged.foldl_eq, foldl_dedup again]

end Commuting

/-! ### Runs next to each other -/

section Agreeing

universe u v

variable {Failure : Type u} {Alpha Beta : Type v}

/-- Two computations both fail, or both succeed with related results. -/
def Agree (related : Alpha → Beta → Prop) : Except Failure Alpha → Except Failure Beta → Prop
  | .ok value, .ok other => related value other
  | .error _, .error _ => True
  | _, _ => False

theorem Agree.cases {related : Alpha → Beta → Prop} {one : Except Failure Alpha}
    {two : Except Failure Beta} (agree : Agree related one two) :
    (∃ value other, one = .ok value ∧ two = .ok other ∧ related value other) ∨
      ∃ failure reason, one = .error failure ∧ two = .error reason := by
  cases one with
  | ok value =>
      cases two with
      | ok other => exact Or.inl ⟨value, other, rfl, rfl, agree⟩
      | error reason => exact agree.elim
  | error failure =>
      cases two with
      | ok other => exact agree.elim
      | error reason => exact Or.inr ⟨failure, reason, rfl, rfl⟩

theorem Agree.foldlM {related : Alpha → Alpha → Prop} {step : Alpha → Beta → Except Failure Alpha}
    {matching : Beta → Beta → Prop}
    (stepped : ∀ state other input counterpart, related state other →
      matching input counterpart → Agree related (step state input) (step other counterpart))
    {inputs counterparts : List Beta} (all : List.Forall₂ matching inputs counterparts)
    {start other : Alpha} (started : related start other) :
    Agree related (inputs.foldlM step start) (counterparts.foldlM step other) := by
  induction all generalizing start other with
  | nil => exact started
  | @cons input counterpart _ _ first _ inductionHypothesis =>
      rw [List.foldlM_cons, List.foldlM_cons]
      rcases (stepped start other input counterpart started first).cases with
        ⟨next, reached, one, two, related⟩ | ⟨failure, reason, one, two⟩
      · rw [one, two]
        exact inductionHypothesis related
      · rw [one, two]
        trivial

end Agreeing

/-! ### Making labels public -/

namespace Directive

theorem publish_of_ne {name : Text} {l : Label} (different : l.name ≠ name) (rest : List Label) :
    publish name (l :: rest) = (publish name rest).map (l :: ·) := by
  rw [publish, if_neg different]

theorem publish_of_eq {name : Text} {l : Label} (named : l.name = name) (rest : List Label) :
    publish name (l :: rest) = some ({ l with isPublic := true } :: rest) := by
  rw [publish, if_pos named]

theorem bind_publish_of_ne {name : Text} {l : Label} (different : l.name ≠ name)
    (labels : Option (List Label)) :
    (labels.map (l :: ·)).bind (publish name) = (labels.bind (publish name)).map (l :: ·) := by
  cases labels with
  | none => rfl
  | some rest => exact publish_of_ne different rest

theorem publish_comm (name other : Text) (labels : List Label) :
    (publish name labels).bind (publish other) = (publish other labels).bind (publish name) := by
  induction labels with
  | nil => rfl
  | cons l rest inductionHypothesis =>
      by_cases first : l.name = name
      · by_cases second : l.name = other
        · rw [← first, ← second]
        · rw [publish_of_eq first, publish_of_ne second, Option.bind_some,
            publish_of_ne (by exact second)]
          cases publish other rest with
          | none => rfl
          | some published => exact (publish_of_eq first published).symm
      · by_cases second : l.name = other
        · rw [publish_of_ne first, publish_of_eq second, Option.bind_some,
            publish_of_ne (by exact first)]
          cases publish name rest with
          | none => rfl
          | some published => exact publish_of_eq second published
        · rw [publish_of_ne first, publish_of_ne second, bind_publish_of_ne second,
            bind_publish_of_ne first, inductionHypothesis]

theorem publish_again (name : Text) (labels : List Label) :
    (publish name labels).bind (publish name) = publish name labels := by
  induction labels with
  | nil => rfl
  | cons l rest inductionHypothesis =>
      by_cases named : l.name = name
      · rw [publish_of_eq named, Option.bind_some]
        exact publish_of_eq (by exact named) rest
      · rw [publish_of_ne named, bind_publish_of_ne named, inductionHypothesis]

/-- What one `.global` directive after another makes of the labels, if none fails. -/
def publishNamed (labels : Option (List Label)) (name : Text) : Option (List Label) :=
  if Text.isIdentifier name then labels.bind (publish name) else none

instance : RightCommutative publishNamed where
  right_comm labels name other := by
    unfold publishNamed
    cases Text.isIdentifier name <;> cases Text.isIdentifier other <;> try rfl
    cases labels with
    | none => rfl
    | some labels => exact publish_comm name other labels

theorem publishNamed_again (labels : Option (List Label)) (name : Text) :
    publishNamed (publishNamed labels name) name = publishNamed labels name := by
  unfold publishNamed
  cases Text.isIdentifier name with
  | false => rfl
  | true =>
      cases labels with
      | none => rfl
      | some labels => exact publish_again name labels

theorem foldl_publishNamed_none (names : List Text) : names.foldl publishNamed none = none := by
  induction names with
  | nil => rfl
  | cons name rest inductionHypothesis =>
      have nothing : publishNamed none name = none := by
        unfold publishNamed
        cases Text.isIdentifier name <;> rfl
      rw [List.foldl_cons, nothing, inductionHypothesis]

theorem toOption_applyGlobal (o : Object) (name : Text) :
    (applyGlobal o name).toOption =
      (publishNamed (some o.labels) name).map fun labels => { o with labels } := by
  unfold applyGlobal publishNamed
  cases Text.isIdentifier name with
  | false => rfl
  | true =>
      simp only [Bool.not_true, Bool.false_eq_true, if_false, if_true, Option.bind_some]
      cases publish name o.labels <;> rfl

end Directive

/-! ### Sources that differ in their `.global` directives -/

namespace Statement

def isOrdinary (s : Statement) : Bool :=
  s.content != .blank && (Layout.globalName? s.content).isNone

def globalNames (statements : List Statement) : List Text :=
  statements.filterMap fun s => Layout.globalName? s.content

theorem globalNames_append (front back : List Statement) :
    globalNames (front ++ back) = globalNames front ++ globalNames back :=
  List.filterMap_append

theorem globalNames_cons {s : Statement} {name : Text}
    (global : Layout.globalName? s.content = some name) (rest : List Statement) :
    globalNames (s :: rest) = name :: globalNames rest :=
  List.filterMap_cons_some global

theorem globalNames_cons_of_none {s : Statement}
    (ordinary : Layout.globalName? s.content = none) (rest : List Statement) :
    globalNames (s :: rest) = globalNames rest :=
  List.filterMap_cons_none ordinary

/-- All other statements are the same in the same order, and the same names are given.  It does
not matter either where lines are left blank. -/
structure Rearranged (statements others : List Statement) : Prop where
  ordinary : statements.filter isOrdinary = others.filter isOrdinary
  globalNames : ∀ name, name ∈ globalNames statements ↔ name ∈ globalNames others

namespace Rearranged

variable {front middle back : List Statement} {s : Statement} {name : Text}

theorem of_perm {statements others : List Statement} (perm : statements.Perm others)
    (ordinary : statements.filter isOrdinary = others.filter isOrdinary) :
    Rearranged statements others :=
  ⟨ordinary, fun _ => (perm.filterMap _).mem_iff⟩

theorem not_isOrdinary (global : Layout.globalName? s.content = some name) :
    s.isOrdinary = false := by
  rw [isOrdinary, global, Option.isNone_some, Bool.and_false]

theorem move (global : Layout.globalName? s.content = some name) :
    Rearranged (front ++ s :: middle ++ back) (front ++ middle ++ s :: back) := by
  apply of_perm
  · rw [List.append_assoc, List.append_assoc, List.cons_append]
    exact List.perm_middle.symm.append_left front
  · simp [not_isOrdinary global]

theorem repeated (global : Layout.globalName? s.content = some name)
    (given : name ∈ Statement.globalNames (front ++ back)) :
    Rearranged (front ++ s :: back) (front ++ back) where
  ordinary := by simp [not_isOrdinary global]
  globalNames := by
    intro other
    rw [globalNames_append, List.mem_append] at given
    rw [globalNames_append, globalNames_append, globalNames_cons global, List.mem_append,
      List.mem_append, List.mem_cons]
    constructor
    · rintro (before | rfl | after)
      · exact Or.inl before
      · exact given
      · exact Or.inr after
    · rintro (before | after)
      · exact Or.inl before
      · exact Or.inr (Or.inr after)

end Rearranged

end Statement

namespace Assembler

variable {a : Assembler} {catalog : Catalog} {d e : Draft}

/-! ### What succeeds in one mode succeeds in the other -/

theorem stopping_step_of_clean {numbered : Nat × Statement} {next : Draft}
    (stepped : a.step catalog d numbered = .ok next) (clean : next.errors = []) :
    d.errors = [] ∧ a.stopping.step catalog d numbered = .ok next := by
  obtain ⟨began, performed, rfl⟩ := step_of_clean stepped clean
  exact ⟨began, by rw [stopping_step, performed]⟩

theorem step_of_stopping {numbered : Nat × Statement} {next : Draft}
    (stepped : a.stopping.step catalog d numbered = .ok next) :
    a.step catalog d numbered = .ok next := by
  rw [stopping_step] at stepped
  rw [step]
  cases performed : (a.perform catalog numbered.1 numbered.2 d).fault with
  | none => simpa only [performed] using stepped
  | some fault => simp [performed] at stepped

theorem stopping_finishGlobal_of_clean {deferred : Deferred} {next : Draft}
    (finished : a.finishGlobal d deferred = .ok next) (clean : next.errors = []) :
    d.errors = [] ∧ a.stopping.finishGlobal d deferred = .ok next := by
  refine ⟨finishGlobal_errors finished clean, ?_⟩
  rw [finishGlobal_eq_report] at finished
  cases stopped : a.stopping.finishGlobal d deferred with
  | ok reached => simpa only [stopped] using finished
  | error failure =>
      rw [stopped] at finished
      exact absurd clean (report_errors finished)

theorem finishGlobal_of_stopping {deferred : Deferred} {next : Draft}
    (finished : a.stopping.finishGlobal d deferred = .ok next) :
    a.finishGlobal d deferred = .ok next := by
  rw [finishGlobal_eq_report, finished]

/-- Whether statements assemble, and to what, is the same in both modes. -/
theorem stopping_assembleStatements_iff {statements : List (Nat × Statement)}
    {assembly : Assembly} :
    a.stopping.assembleStatements statements = .ok assembly ↔
      a.assembleStatements statements = .ok assembly := by
  have unfolded (b : Assembler) :
      b.assembleStatements statements = (b.run statements).mapError .line >>= finish := rfl
  simp only [unfolded, bind_eq_ok_iff, mapError_eq_ok_iff, run]
  constructor
  · rintro ⟨final, ⟨drafted, stepped, finished⟩, result⟩
    have steps := foldlM_eq_ok_of_agree (fun _ => True)
      (fun stepped _ => ⟨trivial, step_of_stopping stepped⟩) stepped trivial
    have lasts := foldlM_eq_ok_of_agree (fun _ => True)
      (fun finished _ => ⟨trivial, finishGlobal_of_stopping finished⟩) finished trivial
    exact ⟨final, ⟨drafted, steps.2, lasts.2⟩, result⟩
  · rintro ⟨final, ⟨drafted, stepped, finished⟩, result⟩
    have clean : final.errors = [] := by
      cases errors : final.errors with
      | nil => rfl
      | cons error rest => simp [finish, errors, bind, Except.bind] at result
    have lasts := foldlM_eq_ok_of_agree (fun d : Draft => d.errors = [])
      stopping_finishGlobal_of_clean finished clean
    have steps := foldlM_eq_ok_of_agree (fun d : Draft => d.errors = [])
      stopping_step_of_clean stepped lasts.1
    exact ⟨final, ⟨drafted, steps.2, lasts.2⟩, result⟩

/-! ### Statements on other lines -/

/-- Drafts that differ at most in the lines on which labels were defined and in what waits for the
end. -/
structure Draft.Alike (d e : Draft) : Prop where
  object : d.object = e.object
  names : d.definitions.map Prod.fst = e.definitions.map Prod.fst
  listing : d.listing = e.listing
  errors : d.errors = e.errors

theorem Draft.Alike.refl (d : Draft) : d.Alike d := ⟨rfl, rfl, rfl, rfl⟩

theorem lookup_eq_none_of_names {definitions others : List (Text × Nat)}
    (names : definitions.map Prod.fst = others.map Prod.fst) (name : Text) :
    definitions.lookup name = none ↔ others.lookup name = none := by
  have absent (list : List (Text × Nat)) :
      list.lookup name = none ↔ name ∉ list.map Prod.fst := by
    rw [List.lookup_eq_none_iff, List.mem_map]
    constructor
    · rintro different ⟨definition, member, rfl⟩
      simpa using different definition member
    · intro absent definition member
      rw [bne_iff_ne]
      rintro rfl
      exact absent ⟨definition, member, rfl⟩
  rw [absent, absent, names]

theorem addLabel_alike (alike : d.Alike e) (line other : Nat) (name : Text) :
    Agree Draft.Alike (addLabel line name d) (addLabel other name e) := by
  have sameLookup := lookup_eq_none_of_names alike.names name
  unfold addLabel
  cases here : d.definitions.lookup name with
  | some firstLine =>
      cases there : e.definitions.lookup name with
      | some otherLine => trivial
      | none => simp [sameLookup.mpr there] at here
  | none =>
      rw [sameLookup.mp here]
      dsimp only
      split
      · trivial
      · exact
          { object := by rw [alike.object]
            names := by rw [List.map_cons, List.map_cons, alike.names]
            listing := alike.listing
            errors := alike.errors }

theorem performDirective_alike (alike : d.Alike e) (line other : Nat) (name arguments : Text) :
    (a.performDirective line name arguments d).draft.Alike
        (a.performDirective other name arguments e).draft ∧
      ((a.performDirective line name arguments d).fault = none ↔
        (a.performDirective other name arguments e).fault = none) := by
  cases known : Directive.lookup? a.customDirectives name with
  | none =>
      simp only [performDirective, known]
      exact ⟨alike, by simp⟩
  | some directive =>
      by_cases global : directive.action = .global
      · rw [performDirective_of_global known global, performDirective_of_global known global]
        exact ⟨⟨alike.object, alike.names, alike.listing, alike.errors⟩, Iff.rfl⟩
      · rw [performDirective_of_not_global known global,
          performDirective_of_not_global known global, alike.object]
        exact ⟨⟨rfl, alike.names, alike.listing, alike.errors⟩, Iff.rfl⟩

variable (a catalog) in
/-- What a statement does with a draft has no regard to lines. -/
theorem perform_alike (alike : d.Alike e) (line other : Nat) (s : Statement) :
    (a.perform catalog line s d).draft.Alike (a.perform catalog other s e).draft ∧
      ((a.perform catalog line s d).fault = none ↔
        (a.perform catalog other s e).fault = none) := by
  unfold perform
  cases s.content with
  | blank => exact ⟨alike, Iff.rfl⟩
  | unknown => exact ⟨alike, by simp⟩
  | directive name arguments => exact performDirective_alike alike line other name arguments
  | label name =>
      dsimp only
      rcases (addLabel_alike alike line other name).cases with
        ⟨next, reached, here, there, added⟩ | ⟨fault, reason, here, there⟩
      · rw [here, there]
        exact ⟨added, Iff.rfl⟩
      · rw [here, there]
        exact ⟨alike, by simp [Step.ofExcept]⟩
  | instruction mnemonic operands =>
      dsimp only
      cases encodeInstruction catalog s.text mnemonic operands with
      | ok i =>
          exact ⟨⟨congrArg (appendInstruction · i) alike.object, alike.names, alike.listing,
            alike.errors⟩, Iff.rfl⟩
      | error fault => exact ⟨alike, by simp [Step.ofExcept, Except.map]⟩

theorem list_alike (alike : d.Alike e) (start : Nat) (text : Text) :
    (d.list start text).Alike (e.list start text) := by
  unfold Draft.list
  rw [alike.object]
  split
  · exact ⟨rfl, alike.names, congrArg (_ :: ·) alike.listing, alike.errors⟩
  · exact alike

theorem stopping_step_alike (alike : d.Alike e) {numbered other : Nat × Statement}
    (same : numbered.2 = other.2) :
    Agree Draft.Alike (a.stopping.step catalog d numbered)
      (a.stopping.step catalog e other) := by
  obtain ⟨performed, sameFault⟩ :=
    perform_alike a catalog alike numbered.1 other.1 other.2
  rw [stopping_step, stopping_step, same, alike.object]
  cases here : (a.perform catalog numbered.1 other.2 d).fault with
  | none =>
      rw [sameFault.mp here]
      exact list_alike performed _ _
  | some fault =>
      cases there : (a.perform catalog other.1 other.2 e).fault with
      | none => simp [sameFault.mpr there] at here
      | some reason => trivial

theorem finish_alike (alike : d.Alike e) : finish d = finish e := by
  unfold finish
  rw [alike.object, alike.listing, alike.errors]

/-! ### The two parts of a source -/

theorem deferred?_eq_none_iff {numbered : Nat × Statement} :
    a.deferred? numbered = none ↔ Layout.globalName? numbered.2.content = none := by
  unfold deferred? Layout.globalName?
  cases numbered.2.content with
  | directive name arguments =>
      dsimp only
      cases known : Directive.lookup? a.customDirectives name with
      | none =>
          have different : name ≠ ascii "global" := by
            rintro rfl
            cases known
          simp [different]
      | some directive =>
          have named := action_eq_global_iff known
          cases action : directive.action with
          | global => simp [action, named.mp action]
          | _ => simp [action, named.not.mp (by simp [action])]
  | _ => simp

theorem of_deferred?_eq_some {numbered : Nat × Statement} {deferred : Deferred}
    (global : a.deferred? numbered = some deferred) :
    deferred.directive.action = .global ∧
      Layout.globalName? numbered.2.content = some (Text.trim deferred.arguments) := by
  unfold deferred? at global
  unfold Layout.globalName?
  cases content : numbered.2.content with
  | directive name arguments =>
      simp only [content] at global ⊢
      cases known : Directive.lookup? a.customDirectives name with
      | none => simp [known] at global
      | some directive =>
          simp only [known] at global
          cases action : directive.action with
          | global =>
              simp only [action, Option.some.injEq] at global
              subst global
              exact ⟨action, if_pos ((action_eq_global_iff known).mp action)⟩
          | _ => simp [action] at global
  | _ => simp [content] at global

theorem isGlobal_eq (numbered : Nat × Statement) :
    a.isGlobal numbered = (Layout.globalName? numbered.2.content).isSome := by
  rw [isGlobal, Bool.eq_iff_iff, Option.isSome_iff_ne_none, Option.isSome_iff_ne_none, Ne,
    deferred?_eq_none_iff]

theorem step_of_blank {numbered : Nat × Statement} (blank : numbered.2.content = .blank) :
    a.step catalog d numbered = .ok d := by
  simp [step, perform, blank, Draft.list]

theorem foldlM_carryOut_ordinary (statements : List (Nat × Statement)) :
    (statements.filter fun numbered => !a.isGlobal numbered).foldlM a.carryOut d =
      (statements.filter fun numbered => numbered.2.isOrdinary).foldlM (a.step a.forms) d := by
  induction statements generalizing d with
  | nil => rfl
  | cons numbered rest inductionHypothesis =>
      cases global : Layout.globalName? numbered.2.content with
      | some name =>
          rw [List.filter_cons_of_neg (by simp [isGlobal_eq, global]),
            List.filter_cons_of_neg (by simp [Statement.isOrdinary, global]),
            inductionHypothesis]
      | none =>
          have carried : a.carryOut d numbered = a.step a.forms d numbered := by
            rw [carryOut, deferred?_eq_none_iff.mpr global]
          rw [List.filter_cons_of_pos (by simp [isGlobal_eq, global]), List.foldlM_cons, carried]
          by_cases blank : numbered.2.content = .blank
          · rw [List.filter_cons_of_neg (by simp [Statement.isOrdinary, blank]),
              step_of_blank blank]
            exact inductionHypothesis
          · rw [List.filter_cons_of_pos (by simp [Statement.isOrdinary, blank, global]),
              List.foldlM_cons]
            exact bind_congr fun next => inductionHypothesis

theorem toOption_finishGlobal {deferred : Deferred}
    (global : deferred.directive.action = .global) :
    (a.stopping.finishGlobal d deferred).toOption =
      (Directive.publishNamed (some d.object.labels) (Text.trim deferred.arguments)).map
        fun labels => { d with object := { d.object with labels } } := by
  have applied := Directive.toOption_applyGlobal d.object (Text.trim deferred.arguments)
  simp only [finishGlobal, Directive.apply, global]
  cases result : Directive.applyGlobal d.object (Text.trim deferred.arguments) with
  | ok changed =>
      rw [result] at applied
      obtain ⟨labels, published, rfl⟩ := Option.map_eq_some_iff.mp applied.symm
      rw [published]
      rfl
  | error flaw =>
      rw [result] at applied
      rw [Option.map_eq_none_iff.mp applied.symm]
      rfl

theorem foldlM_carryOut_globals (statements : List (Nat × Statement)) :
    ((statements.filter a.isGlobal).foldlM a.stopping.carryOut d).toOption =
      ((Statement.globalNames (statements.map Prod.snd)).foldl Directive.publishNamed
        (some d.object.labels)).map fun labels =>
          { d with object := { d.object with labels } } := by
  induction statements generalizing d with
  | nil => rfl
  | cons numbered rest inductionHypothesis =>
      cases global : a.deferred? numbered with
      | none =>
          have ordinary := deferred?_eq_none_iff.mp global
          rw [List.filter_cons_of_neg (by simp [isGlobal, global]), inductionHypothesis,
            List.map_cons, Statement.globalNames_cons_of_none ordinary]
      | some deferred =>
          obtain ⟨action, named⟩ := of_deferred?_eq_some global
          have carried : a.stopping.carryOut d numbered = a.stopping.finishGlobal d deferred := by
            have same : a.stopping.deferred? numbered = some deferred := global
            rw [carryOut, same]
          have finished := toOption_finishGlobal (a := a) (d := d) action
          rw [List.filter_cons_of_pos (by simp [isGlobal, global]), List.foldlM_cons, carried,
            List.map_cons, Statement.globalNames_cons named, List.foldl_cons]
          cases result : a.stopping.finishGlobal d deferred with
          | error failure =>
              rw [result] at finished
              rw [Option.map_eq_none_iff.mp finished.symm, Directive.foldl_publishNamed_none]
              rfl
          | ok next =>
              rw [result] at finished
              obtain ⟨labels, published, rfl⟩ := Option.map_eq_some_iff.mp finished.symm
              rw [published]
              exact inductionHypothesis

variable (a catalog) in
/-- Statements on other lines lead to drafts that are alike, or fail on both. -/
theorem foldlM_step_alike {statements others : List (Nat × Statement)}
    (same : statements.map Prod.snd = others.map Prod.snd) (alike : d.Alike e) :
    Agree Draft.Alike (statements.foldlM (a.stopping.step catalog) d)
      (others.foldlM (a.stopping.step catalog) e) := by
  rw [← List.forall₂_eq_eq_eq, List.forall₂_map_left_iff, List.forall₂_map_right_iff] at same
  refine Agree.foldlM ?_ same alike
  intro state reached numbered other alike same
  exact stopping_step_alike alike same

/-- Assembling in three parts: the other statements, the `.global` directives, the references. -/
theorem toOption_assembleStatements (statements : List (Nat × Statement)) :
    (a.stopping.assembleStatements statements).toOption =
      ((statements.filter fun numbered => numbered.2.isOrdinary).foldlM
        (a.stopping.step a.forms) .empty).toOption.bind fun d =>
          ((Statement.globalNames (statements.map Prod.snd)).foldl Directive.publishNamed
            (some d.object.labels)).bind fun labels =>
              (finish { d with object := { d.object with labels } }).toOption := by
  have ordinary := foldlM_carryOut_ordinary (a := a.stopping) (d := .empty) statements
  have sameForms : a.stopping.forms = a.forms := rfl
  rw [assembleStatements_eq (a := a.stopping) (by simp [stopping]), putOff, List.foldlM_append,
    ordinary, sameForms]
  cases (statements.filter fun numbered => numbered.2.isOrdinary).foldlM
      (a.stopping.step a.forms) .empty with
  | error failure => rfl
  | ok d =>
      have globals := foldlM_carryOut_globals (a := a) (d := d) statements
      have sameGlobals : a.stopping.isGlobal = a.isGlobal := rfl
      change (((statements.filter a.stopping.isGlobal).foldlM a.stopping.carryOut d).mapError
        .line >>= finish).toOption = _
      rw [sameGlobals]
      cases ended : (statements.filter a.isGlobal).foldlM a.stopping.carryOut d with
      | error failure =>
          rw [ended] at globals
          have nothing := Option.map_eq_none_iff.mp globals.symm
          simp [Except.toOption, nothing, Except.mapError, bind, Except.bind]
      | ok final =>
          rw [ended] at globals
          obtain ⟨labels, published, rfl⟩ := Option.map_eq_some_iff.mp globals.symm
          simp [Except.toOption, published, Except.mapError, bind, Except.bind]

/-- Statements assemble to the same object with the same listing in both orders, or in none. -/
theorem assembleStatements_of_rearranged {statements others : List (Nat × Statement)}
    (rearranged : Statement.Rearranged (statements.map Prod.snd) (others.map Prod.snd)) :
    (a.stopping.assembleStatements statements).toOption =
      (a.stopping.assembleStatements others).toOption := by
  have ordinary := rearranged.ordinary
  rw [List.filter_map, List.filter_map] at ordinary
  rw [toOption_assembleStatements, toOption_assembleStatements]
  rcases (foldlM_step_alike a a.forms ordinary (.refl .empty)).cases with
    ⟨d, e, here, there, alike⟩ | ⟨failure, reason, here, there⟩
  · simp only [Function.comp_def] at here there
    rw [here, there]
    simp only [Except.toOption, Option.bind_some]
    rw [foldl_eq_of_mem_iff Directive.publishNamed_again rearranged.globalNames, alike.object]
    refine Option.bind_congr fun labels _ => ?_
    have published : Draft.Alike { d with object := { e.object with labels } }
        { e with object := { e.object with labels } } :=
      ⟨rfl, alike.names, alike.listing, alike.errors⟩
    rw [finish_alike published]
  · simp only [Function.comp_def] at here there
    rw [here, there]
    rfl

/-- `.global` directives may stand anywhere, in any order, and be repeated: if all other statements
stand in the same order and the same names are made public, both sources assemble to the same
object with the same listing, or none of them assembles. -/
theorem global_directives_stand_anywhere (a : Assembler) (source other : Text)
    (rearranged : Statement.Rearranged ((Statement.ofSource source).map Prod.snd)
      ((Statement.ofSource other).map Prod.snd)) (assembly : Assembly) :
    a.assemble source = .ok assembly ↔ a.assemble other = .ok assembly := by
  unfold assemble
  rw [← stopping_assembleStatements_iff (a := a), ← toOption_eq_some_iff,
    assembleStatements_of_rearranged rearranged, toOption_eq_some_iff,
    stopping_assembleStatements_iff]

/-- One name is made public twice, once next to its label. -/
def sampleScattered : Text :=
  ascii ".global there\nhere: .global here\nadd eax, there[rip]\n.global here\nthere: .db8 1"

def sampleGathered : Text :=
  ascii "here: add eax, there[rip]\nthere: .db8 1\n.global here\n.global there"

theorem global_directives_stand_anywhere_sample :
    ∃ assembly, standard.assemble sampleScattered = .ok assembly ∧
      assembly.object.labels.map (·.isPublic) = [true, true] ∧
      standard.assemble sampleGathered = .ok assembly := by
  have evaluated : (standard.assemble sampleScattered).toOption.map
      (fun assembly => assembly.object.labels.map (·.isPublic)) = some [true, true] := by
    decide +kernel
  simp only [Option.map_eq_some_iff, toOption_eq_some_iff] at evaluated
  obtain ⟨assembly, assembled, isPublic⟩ := evaluated
  have ordinary :
      ((Statement.ofSource sampleScattered).map Prod.snd).filter Statement.isOrdinary =
        ((Statement.ofSource sampleGathered).map Prod.snd).filter Statement.isOrdinary := by
    decide +kernel
  have scattered :
      Statement.globalNames ((Statement.ofSource sampleScattered).map Prod.snd) =
        [ascii "there", ascii "here", ascii "here"] := by decide +kernel
  have gathered :
      Statement.globalNames ((Statement.ofSource sampleGathered).map Prod.snd) =
        [ascii "here", ascii "there"] := by decide +kernel
  have rearranged : Statement.Rearranged ((Statement.ofSource sampleScattered).map Prod.snd)
      ((Statement.ofSource sampleGathered).map Prod.snd) := by
    refine ⟨ordinary, fun name => ?_⟩
    rw [scattered, gathered]
    simp [or_comm]
  exact ⟨assembly, assembled, isPublic,
    (global_directives_stand_anywhere standard _ _ rearranged assembly).mp assembled⟩

end Assembler

end Asm64
