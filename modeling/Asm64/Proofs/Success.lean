import Mathlib.Data.List.Forall2

/-!
When a computation that may fail succeeds, and when it fails: the parts of it that succeed or fail
with it.
-/

namespace Asm64

universe u v

variable {Failure OtherFailure : Type u} {Alpha Beta : Type v}

theorem bind_eq_ok_iff {computation : Except Failure Alpha}
    {continuation : Alpha → Except Failure Beta} {result : Beta} :
    (computation >>= continuation) = .ok result ↔
      ∃ value, computation = .ok value ∧ continuation value = .ok result := by
  cases computation <;> simp [bind, Except.bind]

theorem ite_bind_eq_ok_iff {condition : Prop} [Decidable condition]
    {computation other : Except Failure Alpha} {continuation : Alpha → Except Failure Beta}
    {result : Beta} :
    (if condition then computation >>= continuation else other >>= continuation) = .ok result ↔
      ∃ value, (if condition then computation else other) = .ok value ∧
        continuation value = .ok result := by
  split <;> exact bind_eq_ok_iff

theorem map_eq_ok_iff {computation : Except Failure Alpha} {change : Alpha → Beta}
    {result : Beta} :
    computation.map change = .ok result ↔
      ∃ value, computation = .ok value ∧ change value = result := by
  cases computation <;> simp [Except.map]

theorem map_eq_error_iff {computation : Except Failure Alpha} {change : Alpha → Beta}
    {failure : Failure} :
    computation.map change = .error failure ↔ computation = .error failure := by
  cases computation <;> simp [Except.map]

theorem mapError_eq_ok_iff {computation : Except Failure Alpha}
    {change : Failure → OtherFailure} {result : Alpha} :
    computation.mapError change = .ok result ↔ computation = .ok result := by
  cases computation <;> simp [Except.mapError]

theorem pure_eq_ok_iff {value result : Alpha} :
    (pure value : Except Failure Alpha) = .ok result ↔ value = result := by
  simp [pure, Except.pure]

theorem toOption_eq_some_iff {computation : Except Failure Alpha} {result : Alpha} :
    computation.toOption = some result ↔ computation = .ok result := by
  cases computation <;> simp [Except.toOption]

theorem toOption_mapError (computation : Except Failure Alpha) (change : Failure → OtherFailure) :
    (computation.mapError change).toOption = computation.toOption := by
  cases computation <;> rfl

theorem mapM_eq_ok_iff {step : Alpha → Except Failure Beta} {inputs : List Alpha}
    {outputs : List Beta} :
    inputs.mapM step = .ok outputs ↔
      List.Forall₂ (fun input output => step input = .ok output) inputs outputs := by
  induction inputs generalizing outputs with
  | nil =>
      rw [List.mapM_nil, pure_eq_ok_iff, List.forall₂_nil_left_iff, eq_comm]
  | cons input rest inductionHypothesis =>
      simp only [List.mapM_cons, bind_eq_ok_iff, pure_eq_ok_iff, inductionHypothesis,
        List.forall₂_cons_left_iff]
      constructor
      · rintro ⟨output, done, others, restDone, rfl⟩
        exact ⟨output, others, done, restDone, rfl⟩
      · rintro ⟨output, others, done, restDone, rfl⟩
        exact ⟨output, done, others, restDone, rfl⟩

theorem mapM_congr {step other : Alpha → Except Failure Beta} {inputs : List Alpha}
    (agree : ∀ input ∈ inputs, step input = other input) :
    inputs.mapM step = inputs.mapM other := by
  induction inputs with
  | nil => rfl
  | cons input rest inductionHypothesis =>
      rw [List.forall_mem_cons] at agree
      rw [List.mapM_cons, List.mapM_cons, agree.1, inductionHypothesis agree.2]

theorem mapM_eq_some_of_eq_ok {step : Alpha → Except Failure Beta} {other : Alpha → Option Beta}
    (agree : ∀ {input output}, step input = .ok output → other input = some output)
    {inputs : List Alpha} {outputs : List Beta} (succeeded : inputs.mapM step = .ok outputs) :
    inputs.mapM other = some outputs := by
  rw [mapM_eq_ok_iff] at succeeded
  induction succeeded with
  | nil => rfl
  | cons done restDone inductionHypothesis => simp [agree done, inductionHypothesis]

theorem mapM_eq_some_zipWith {Gamma : Type v} {step : Alpha → Option Gamma}
    {result : Alpha → Beta → Gamma} {inputs : List Alpha} {others : List Beta}
    (all : List.Forall₂ (fun input other => step input = some (result input other)) inputs others) :
    inputs.mapM step = some (List.zipWith result inputs others) := by
  induction all with
  | nil => rfl
  | cons here _ inductionHypothesis => simp [here, inductionHypothesis]

theorem exists_of_forall₂ {related : Alpha → Beta → Prop} {inputs : List Alpha}
    {outputs : List Beta} (all : List.Forall₂ related inputs outputs) {input : Alpha}
    (member : input ∈ inputs) : ∃ output, related input output := by
  induction all with
  | nil => cases member
  | @cons first output _ _ here _ inductionHypothesis =>
      rcases List.mem_cons.mp member with rfl | later
      · exact ⟨output, here⟩
      · exact inductionHypothesis later

/-- A run that ends well is one of another kind of step too, if each step that leads to a good
state comes from a good state and is one of the other kind. -/
theorem foldlM_eq_ok_of_agree {step other : Alpha → Beta → Except Failure Alpha}
    (good : Alpha → Prop)
    (agree : ∀ {state input next}, step state input = .ok next → good next →
      good state ∧ other state input = .ok next)
    {inputs : List Beta} {start final : Alpha} (ran : inputs.foldlM step start = .ok final)
    (ended : good final) : good start ∧ inputs.foldlM other start = .ok final := by
  induction inputs generalizing start with
  | nil =>
      rw [List.foldlM_nil, pure_eq_ok_iff] at ran
      exact ⟨ran ▸ ended, by rw [List.foldlM_nil, pure_eq_ok_iff, ran]⟩
  | cons input rest inductionHypothesis =>
      rw [List.foldlM_cons, bind_eq_ok_iff] at ran
      obtain ⟨next, first, ran⟩ := ran
      obtain ⟨reached, continued⟩ := inductionHypothesis ran
      obtain ⟨began, same⟩ := agree first reached
      exact ⟨began, by rw [List.foldlM_cons, same]; exact continued⟩

/-! ### Failures -/

theorem bind_eq_error_iff {computation : Except Failure Alpha}
    {continuation : Alpha → Except Failure Beta} {failure : Failure} :
    (computation >>= continuation) = .error failure ↔
      computation = .error failure ∨
        ∃ value, computation = .ok value ∧ continuation value = .error failure := by
  cases computation <;> simp [bind, Except.bind]

theorem mapError_eq_error_iff {computation : Except Failure Alpha}
    {change : Failure → OtherFailure} {failure : OtherFailure} :
    computation.mapError change = .error failure ↔
      ∃ reason, computation = .error reason ∧ change reason = failure := by
  cases computation <;> simp [Except.mapError]

theorem mapM_eq_error {step : Alpha → Except Failure Beta} {inputs : List Alpha}
    {failure : Failure} (failed : inputs.mapM step = .error failure) :
    ∃ input ∈ inputs, step input = .error failure := by
  induction inputs with
  | nil => simp [pure, Except.pure] at failed
  | cons input rest inductionHypothesis =>
      simp only [List.mapM_cons, bind_eq_error_iff] at failed
      rcases failed with here | ⟨output, -, later | ⟨outputs, -, impossible⟩⟩
      · exact ⟨input, List.mem_cons_self, here⟩
      · obtain ⟨other, member, failedThere⟩ := inductionHypothesis later
        exact ⟨other, List.mem_cons_of_mem input member, failedThere⟩
      · cases impossible

/-- The result of a computation has one property, or its failure another. -/
def Ends (result : Alpha → Prop) (failure : Failure → Prop) : Except Failure Alpha → Prop
  | .ok value => result value
  | .error reason => failure reason

namespace Ends

variable {result : Alpha → Prop} {failure : Failure → Prop}

theorem of_error {computation : Except Failure Alpha} {reason : Failure}
    (ends : Ends result failure computation) (failed : computation = .error reason) :
    failure reason := by
  rw [failed] at ends
  exact ends

theorem map {computation : Except Failure Alpha} {change : Alpha → Beta} {changed : Beta → Prop}
    (ends : Ends result failure computation)
    (kept : ∀ value, result value → changed (change value)) :
    Ends changed failure (computation.map change) := by
  cases computation with
  | ok value => exact kept value ends
  | error reason => exact ends

theorem bind {computation : Except Failure Alpha} {continuation : Alpha → Except Failure Beta}
    {last : Beta → Prop} (ends : Ends result failure computation)
    (continued : ∀ value, result value → Ends last failure (continuation value)) :
    Ends last failure (computation >>= continuation) := by
  cases computation with
  | ok value => exact continued value ends
  | error reason => exact ends

theorem foldlM {step : Alpha → Beta → Except Failure Alpha} {inputs : List Beta} {start : Alpha}
    (initial : result start)
    (kept : ∀ input ∈ inputs, ∀ state, result state → Ends result failure (step state input)) :
    Ends result failure (inputs.foldlM step start) := by
  induction inputs generalizing start with
  | nil => exact initial
  | cons input rest inductionHypothesis =>
      rw [List.forall_mem_cons] at kept
      rw [List.foldlM_cons]
      exact (kept.1 start initial).bind fun next reached => inductionHypothesis reached kept.2

end Ends

end Asm64
