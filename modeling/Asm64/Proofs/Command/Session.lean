import Asm64.Command.Basic
import Asm64.Proofs.Load

/-!
# What sessions write

What a session does to the files does not depend on what it logs.  It depends on what it prints only
in that a text may be refused.  So a session is followed from step to step by its result and by the
change of the files: each step has one rule, which says what has to hold where it succeeds and where
it fails.
-/

namespace Asm64.Command

namespace Session

variable {Alpha Beta Failure : Type}

/-- Wherever the work prints, if `start` is done to the files before it, then its result and what is
done to them after it are as `ending` says. -/
def Leaves (work : Session Alpha) (start : Option Change)
    (ending : Except Error Alpha → Option Change → Prop) : Prop :=
  ∀ printer report, report.change = start →
    ending (work.runOn printer report).1 (work.runOn printer report).2.change

/-- The work ends in a way from which the next work leads to the ending.  A failure is the ending
already. -/
def LeadsTo (next : Alpha → Session Beta) (ending : Except Error Beta → Option Change → Prop) :
    Except Error Alpha → Option Change → Prop
  | .ok value, change => (next value).Leaves change ending
  | .error failure, change => ending (.error failure) change

theorem runOn_bind (work : Session Alpha) (next : Alpha → Session Beta) (printer : Printer)
    (report : Report) :
    (work >>= next).runOn printer report =
      match work.runOn printer report with
      | (.ok value, after) => (next value).runOn printer after
      | (.error failure, after) => (.error failure, after) := by
  simp only [runOn, ReaderT.run_bind, ExceptT.run_bind, StateT.run_bind]
  cases (work.run printer).run.run report with
  | mk result after => cases result <;> rfl

theorem exists_runOn_refusal? (t : Text) (printer : Printer) (report : Report) :
    ∃ refusal, (refusal? t).runOn printer report = (.ok refusal, report) := by
  unfold refusal?
  split
  · exact ⟨none, rfl⟩
  · exact ⟨printer.refusal? report.output t, rfl⟩

namespace Leaves

variable {start : Option Change} {ending : Except Error Alpha → Option Change → Prop}

theorem bind {work : Session Beta} {next : Beta → Session Alpha}
    (leads : work.Leaves start (LeadsTo next ending)) : (work >>= next).Leaves start ending := by
  intro printer report started
  have reached := leads printer report started
  rw [runOn_bind]
  cases ran : work.runOn printer report with
  | mk result after =>
      rw [ran] at reached
      cases result with
      | ok value => exact reached printer after rfl
      | error failure => exact reached

theorem pure {value : Alpha} (ends : ending (.ok value) start) :
    (Pure.pure value : Session Alpha).Leaves start ending := by
  rintro printer report rfl
  exact ends

theorem throw {failure : Error} (ends : ending (.error failure) start) :
    (MonadExcept.throw failure : Session Alpha).Leaves start ending := by
  rintro printer report rfl
  exact ends

theorem require {cause : Failure → Error} {result : Except Failure Alpha}
    (fails : ∀ reason, result = .error reason → ending (.error (cause reason)) start)
    (succeeds : ∀ value, result = .ok value → ending (.ok value) start) :
    (Session.require cause result).Leaves start ending := by
  cases result with
  | ok value => exact .pure (succeeds value rfl)
  | error reason => exact .throw (fails reason rfl)

theorem ite {condition : Prop} [Decidable condition] {work other : Session Alpha}
    (holds : condition → work.Leaves start ending)
    (fails : ¬condition → other.Leaves start ending) :
    (if condition then work else other : Session Alpha).Leaves start ending := by
  split
  · next condition => exact holds condition
  · next condition => exact fails condition

/-- What has been logged before in the session makes no difference to logged work. -/
theorem logged {cause : Failure → Error} {work : Log.Logged Failure Alpha}
    (fails : ∀ reason, Log.resultAfter [] work = .error reason →
      ending (.error (cause reason)) start)
    (succeeds : ∀ value, Log.resultAfter [] work = .ok value → ending (.ok value) start) :
    (Session.logged cause work).Leaves start ending := by
  rintro printer report rfl
  exact Leaves.require fails succeeds printer
    { report with log := report.log ++ Log.logAfter [] work } rfl

theorem note {entry : Log.Entry} {ending : Except Error Unit → Option Change → Prop}
    (ends : ending (.ok ()) start) : (Session.note entry).Leaves start ending := by
  rintro printer report rfl
  exact ends

theorem print {failure : Text → Error} {t : Text}
    {ending : Except Error Unit → Option Change → Prop}
    (refused : ∀ cause, ending (.error (failure cause)) start) (printed : ending (.ok ()) start) :
    (Session.print failure t).Leaves start ending := by
  rintro printer report rfl
  obtain ⟨refusal, asked⟩ := exists_runOn_refusal? t printer report
  rw [Session.print, runOn_bind, asked]
  cases refusal with
  | none => exact printed
  | some cause => exact refused cause

theorem offer {t : Text} {ending : Except Error Unit → Option Change → Prop}
    (ends : ending (.ok ()) start) : (Session.offer t).Leaves start ending := by
  rintro printer report rfl
  obtain ⟨refusal, asked⟩ := exists_runOn_refusal? t printer report
  rw [Session.offer, runOn_bind, asked]
  cases refusal <;> exact ends

theorem save {files : FileStore} {w : FileWrite}
    {ending : Except Error Unit → Option Change → Prop}
    (fails : ∀ e, files.writeError? w.path = some e → ending (.error (.write w.path e)) start)
    (saved : files.writeError? w.path = none → ending (.ok ()) (some (.write w))) :
    (Session.save files w).Leaves start ending := by
  rintro printer report rfl
  unfold Session.save
  cases checked : files.writeError? w.path with
  | some e => exact fails e checked
  | none => exact saved checked

theorem call {machine : Machine} {f : Function} {files : FileStore}
    {ending : Except Error Int64 → Option Change → Prop}
    (ends : ending (.ok (machine.call f files).value) (some (.call (machine.call f files).files))) :
    (Session.call machine f files).Leaves start ending := by
  rintro printer report rfl
  exact ends

/-! What the commands have in common. -/

theorem misused {o : Outline} {error : UsageError} (ends : ending (.error (.usage error)) start) :
    (Command.misused o error : Session Alpha).Leaves start ending :=
  .bind (.offer (.throw ends))

theorem withFlags {o : Outline} {arguments : List Text} {work : Flag.Parsed → Session Unit}
    {ending : Except Error Unit → Option Change → Prop}
    (malformed : ∀ e, Flag.parse o.flags arguments = .error e →
      ending (.error (.usage (.flag e))) start)
    (helps : ∀ parsed, Flag.parse o.flags arguments = .ok parsed → parsed.isOn "help" = true →
      ending (.ok ()) start)
    (proceeds : ∀ parsed, Flag.parse o.flags arguments = .ok parsed →
      parsed.isOn "help" = false → (work parsed).Leaves start ending) :
    (Command.withFlags o arguments work).Leaves start ending := by
  refine .bind (.require malformed fun parsed read => ?_)
  exact .ite (fun helping => .offer (helps parsed read helping))
    fun helping => proceeds parsed read (Bool.not_eq_true _ ▸ helping)

end Leaves

/-- The session ends with nothing done to the files. -/
def ChangesNothing (work : Session Alpha) : Prop :=
  work.Leaves none fun _ change => change = none

end Session

end Asm64.Command
