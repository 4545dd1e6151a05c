/-!
# Work in place

Work that changes a state step by step and may fail on the way.  What was done before a failure
stays done, so whether a failure leaves the state whole is a matter of the order of the steps.
-/

namespace Asm64

/-- Work on a state.  What was done to the state before a failure stays done. -/
abbrev InPlace (State Failure : Type) := ExceptT Failure (StateM State)

namespace InPlace

variable {State Failure Alpha Beta : Type}

/-- How work on a state ends, and what is left of the state. -/
def runOn (work : InPlace State Failure Alpha) (s : State) : Except Failure Alpha × State :=
  work.run.run s

theorem runOn_bind (work : InPlace State Failure Alpha)
    (next : Alpha → InPlace State Failure Beta) (s : State) :
    runOn (work >>= next) s =
      match runOn work s with
      | (.ok value, t) => runOn (next value) t
      | (.error failure, t) => (.error failure, t) := by
  simp only [runOn, ExceptT.run_bind, StateT.run_bind]
  cases work.run.run s with
  | mk result t => cases result <;> rfl

@[simp]
theorem runOn_pure (value : Alpha) (s : State) :
    runOn (pure value : InPlace State Failure Alpha) s = (.ok value, s) := rfl

@[simp]
theorem runOn_get (s : State) : runOn (get : InPlace State Failure State) s = (.ok s, s) := rfl

@[simp]
theorem runOn_modify (change : State → State) (s : State) :
    runOn (modify change : InPlace State Failure PUnit) s = (.ok ⟨⟩, change s) := rfl

/-- Work on a part of a state. -/
def onPart {Part Cause : Type} (part : State → Part) (replace : State → Part → State)
    (cause : Cause → Failure) (work : InPlace Part Cause Alpha) : InPlace State Failure Alpha :=
  fun s => ((runOn work (part s)).1.mapError cause, replace s (runOn work (part s)).2)

theorem runOn_onPart {Part Cause : Type} (part : State → Part) (replace : State → Part → State)
    (cause : Cause → Failure) (work : InPlace Part Cause Alpha) (s : State) :
    runOn (onPart part replace cause work) s =
      ((runOn work (part s)).1.mapError cause, replace s (runOn work (part s)).2) := rfl

end InPlace

end Asm64
