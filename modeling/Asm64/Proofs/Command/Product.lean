import Asm64.Proofs.Command.Session
import Asm64.Proofs.FileStore
import Asm64.Proofs.Success

/-!
# The product of a command

What a command writes is made from the files and its arguments alone: either there is a file to be
written, its product, or there is a reason why there is none.  A session follows the making of the
product step by step.  It ends like the making, unless a text that it prints is refused, and then it
matters whether this happens before the product is written or after.
-/

namespace Asm64.Command

open Command.Session (Leaves)

/-- How a session may fail because a text is refused, before it has written its product and
after. -/
structure Refusals where
  before : Error → Prop
  after : Error → Prop

/-- How a session with a product ends.  There may be nothing to write, if help is asked for. -/
inductive Ending (refusals : Refusals) (made : Except Error (Option FileWrite)) :
    Except Error Unit → Option Change → Prop where
  | succeeds {write : Option FileWrite} : made = .ok write →
    Ending refusals made (.ok ()) (write.map .write)
  | fails {e : Error} : made = .error e → Ending refusals made (.error e) none
  | refusedBefore {e : Error} : refusals.before e → Ending refusals made (.error e) none
  | refusedAfter {e : Error} {write : Option FileWrite} :
    refusals.after e → made = .ok write → Ending refusals made (.error e) (write.map .write)

/-- The work writes the product, or fails as the making of it does. -/
def Makes (refusals : Refusals) (work : Session Unit) (product : Except Error FileWrite) : Prop :=
  work.Leaves none (Ending refusals (product.map some))

def writable (files : FileStore) (w : FileWrite) : Except Error FileWrite :=
  match files.writeError? w.path with
  | some e => .error (.write w.path e)
  | none => .ok w

theorem writable_eq_ok_iff {files : FileStore} {w written : FileWrite} :
    writable files w = .ok written ↔ files.writeError? w.path = none ∧ w = written := by
  unfold writable
  cases files.writeError? w.path <;> simp

namespace Makes

variable {Alpha Failure : Type} {refusals : Refusals} {next : Alpha → Session Unit}
  {rest : Alpha → Except Error FileWrite} {product : Except Error FileWrite}

theorem misused {o : Outline} {error : UsageError} :
    Makes refusals (Command.misused o error) (.error (.usage error)) :=
  Leaves.misused (.fails rfl)

/-- A step that has a result and writes nothing: if it fails, then so does the making. -/
theorem step {work : Session Alpha} {result : Except Error Alpha}
    (gives : ∀ {ending : Except Error Alpha → Option Change → Prop},
      (∀ e, result = .error e → ending (.error e) none) →
      (∀ value, result = .ok value → ending (.ok value) none) → work.Leaves none ending)
    (continues : ∀ value, Makes refusals (next value) (rest value)) :
    Makes refusals (work >>= next) (result >>= rest) := by
  refine .bind (gives (fun e failed => ?_) fun value succeeded => ?_)
  · rw [failed]
    exact .fails rfl
  · rw [succeeded]
    exact continues value

theorem requireOwn {result : Except Error Alpha}
    (continues : ∀ value, Makes refusals (next value) (rest value)) :
    Makes refusals (Session.require id result >>= next) (result >>= rest) :=
  step Leaves.require continues

theorem require {cause : Failure → Error} {result : Except Failure Alpha}
    (continues : ∀ value, Makes refusals (next value) (rest value)) :
    Makes refusals (Session.require cause result >>= next) (result.mapError cause >>= rest) :=
  step (fun fails succeeds => Leaves.require
    (fun reason failed => fails _ (mapError_eq_error_iff.mpr ⟨reason, failed, rfl⟩))
    fun value done => succeeds value (mapError_eq_ok_iff.mpr done)) continues

theorem logged {cause : Failure → Error} {work : Log.Logged Failure Alpha}
    (continues : ∀ value, Makes refusals (next value) (rest value)) :
    Makes refusals (Session.logged cause work >>= next)
      ((Log.resultAfter [] work).mapError cause >>= rest) :=
  step (fun fails succeeds => Leaves.logged
    (fun reason failed => fails _ (mapError_eq_error_iff.mpr ⟨reason, failed, rfl⟩))
    fun value done => succeeds value (mapError_eq_ok_iff.mpr done)) continues

theorem note {entry : Log.Entry} {next : Unit → Session Unit}
    (continues : Makes refusals (next ()) product) :
    Makes refusals (Session.note entry >>= next) product :=
  .bind (.note continues)

theorem print {failure : Text → Error} {t : Text} {next : Unit → Session Unit}
    (refused : ∀ cause, refusals.before (failure cause))
    (continues : Makes refusals (next ()) product) :
    Makes refusals (Session.print failure t >>= next) product :=
  .bind (.print (fun cause => .refusedBefore (refused cause)) continues)

/-- Once the product is written, only a text that is printed can still be refused. -/
theorem save {files : FileStore} {w : FileWrite} {next : Unit → Session Unit}
    (continues : (next ()).Leaves (some (.write w)) fun result change =>
      change = some (.write w) ∧ ∀ e, result = .error e → refusals.after e) :
    Makes refusals (Session.save files w >>= next) (writable files w) := by
  refine .bind (.save (fun e failed => ?_) fun free => ?_)
  · rw [writable, failed]
    exact .fails rfl
  · have made : writable files w = .ok w := writable_eq_ok_iff.mpr ⟨free, rfl⟩
    rw [made]
    intro printer report started
    obtain ⟨written, refused⟩ := continues printer report started
    rw [written]
    cases ended : (Session.runOn (next ()) printer report).1 with
    | ok _ => exact @Ending.succeeds _ _ (some w) rfl
    | error e => exact @Ending.refusedAfter _ _ e (some w) (refused e ended) rfl

end Makes

/-! ### Calls -/

/-- What a call makes: nothing, if help is asked for. -/
def requested (o : Outline) (arguments : List Text)
    (product : Flag.Parsed → Except Error FileWrite) : Except Error (Option FileWrite) := do
  let parsed ← (Flag.parse o.flags arguments).mapError fun e => Error.usage (.flag e)
  if parsed.isOn "help" then return none else (product parsed).map some

section Requests

variable {o : Outline} {arguments : List Text} {product : Flag.Parsed → Except Error FileWrite}
  {parsed : Flag.Parsed}

theorem requested_of_malformed {e : Flag.Error} (failed : Flag.parse o.flags arguments = .error e) :
    requested o arguments product = .error (.usage (.flag e)) := by
  rw [requested, failed]
  rfl

theorem requested_of_help (read : Flag.parse o.flags arguments = .ok parsed)
    (help : parsed.isOn "help" = true) : requested o arguments product = .ok none := by
  rw [requested, read]
  exact if_pos help

theorem requested_of_proceeding (read : Flag.parse o.flags arguments = .ok parsed)
    (proceeds : parsed.isOn "help" = false) :
    requested o arguments product = (product parsed).map some := by
  rw [requested, read]
  exact if_neg (by simp [proceeds])

theorem exists_of_requested {write : Option FileWrite}
    (made : requested o arguments product = .ok write) :
    ∃ parsed, Flag.parse o.flags arguments = .ok parsed ∧
      (parsed.isOn "help" = true ∧ write = none ∨
        parsed.isOn "help" = false ∧ ∃ w, product parsed = .ok w ∧ write = some w) := by
  cases read : Flag.parse o.flags arguments with
  | error e =>
      rw [requested_of_malformed read] at made
      cases made
  | ok parsed =>
      refine ⟨parsed, rfl, ?_⟩
      cases helping : parsed.isOn "help" with
      | true =>
          rw [requested_of_help read helping] at made
          cases made
          exact .inl ⟨rfl, rfl⟩
      | false =>
          rw [requested_of_proceeding read helping, map_eq_ok_iff] at made
          obtain ⟨w, made, same⟩ := made
          exact .inr ⟨rfl, w, made, same.symm⟩

end Requests

section Calls

variable (command : FileStore → List Text → Session Unit) (printer : Printer) (files : FileStore)
  (arguments : List Text)

def resultOf : Except Error Unit := ((command files arguments).runOn printer .empty).1

def filesAfter : FileStore := ((command files arguments).runOn printer .empty).2.filesAfter files

/-- The command reads its flags, and then makes its product. -/
def Produces (refusals : List Text → Refusals) (o : Outline)
    (product : FileStore → Flag.Parsed → Except Error FileWrite) : Prop :=
  ∀ files arguments, (command files arguments).Leaves none
    (Ending (refusals arguments) (requested o arguments (product files)))

variable {command files arguments}

theorem exists_ending {ending : Except Error Unit → Option Change → Prop}
    (leaves : (command files arguments).Leaves none ending) :
    ∃ change, ending (resultOf command printer files arguments) change ∧
      filesAfter command printer files arguments = change.elim files (Change.apply files) :=
  ⟨_, leaves printer .empty rfl, rfl⟩

theorem filesAfter_of_changesNothing
    (nothing : Session.ChangesNothing (command files arguments)) :
    filesAfter command printer files arguments = files := by
  obtain ⟨_, rfl, after⟩ := exists_ending printer nothing
  exact after

namespace Produces

variable {refusals : List Text → Refusals} {o : Outline}
  {product : FileStore → Flag.Parsed → Except Error FileWrite}

theorem of_makes {work : FileStore → Flag.Parsed → Session Unit}
    (makes : ∀ files arguments parsed, Flag.parse o.flags arguments = .ok parsed →
      Makes (refusals arguments) (work files parsed) (product files parsed)) :
    Produces (fun files arguments => withFlags o arguments (work files)) refusals o product := by
  intro files arguments
  refine .withFlags (fun e failed => .fails (requested_of_malformed failed))
    (fun parsed read help => .succeeds (requested_of_help read help)) fun parsed read proceeds => ?_
  rw [requested_of_proceeding read proceeds]
  exact makes files arguments parsed read

end Produces

/-- What a call of a command with a product leads to: its result, and the files after it. -/
inductive Effect (refusals : Refusals) (o : Outline)
    (product : FileStore → Flag.Parsed → Except Error FileWrite) (files : FileStore)
    (arguments : List Text) : Except Error Unit → FileStore → Prop where
  | fails (e : Error) : Effect refusals o product files arguments (.error e) files
  | helps {parsed : Flag.Parsed} : Flag.parse o.flags arguments = .ok parsed →
    parsed.isOn "help" = true → Effect refusals o product files arguments (.ok ()) files
  | produces {parsed : Flag.Parsed} {w : FileWrite} : Flag.parse o.flags arguments = .ok parsed →
    parsed.isOn "help" = false → product files parsed = .ok w →
    Effect refusals o product files arguments (.ok ()) (files.write w)
  | refused {parsed : Flag.Parsed} {w : FileWrite} {e : Error} :
    Flag.parse o.flags arguments = .ok parsed → parsed.isOn "help" = false →
    product files parsed = .ok w → refusals.after e →
    Effect refusals o product files arguments (.error e) (files.write w)

namespace Produces

variable {refusals : List Text → Refusals} {o : Outline}
  {product : FileStore → Flag.Parsed → Except Error FileWrite}
  (produces : Produces command refusals o product)

include produces

theorem effect (printer : Printer) (files : FileStore) (arguments : List Text) :
    Effect (refusals arguments) o product files arguments
      (resultOf command printer files arguments) (filesAfter command printer files arguments) := by
  obtain ⟨write, ending, after⟩ := exists_ending printer (produces files arguments)
  rw [after]
  generalize resultOf command printer files arguments = result at ending ⊢
  cases ending with
  | succeeds made =>
      obtain ⟨parsed, read, ⟨help, rfl⟩ | ⟨proceeds, w, makes, rfl⟩⟩ := exists_of_requested made
      · exact .helps read help
      · exact .produces read proceeds makes
  | fails _ => exact .fails _
  | refusedBefore _ => exact .fails _
  | refusedAfter refused made =>
      obtain ⟨parsed, read, ⟨-, rfl⟩ | ⟨proceeds, w, makes, rfl⟩⟩ := exists_of_requested made
      · exact .fails _
      · exact .refused read proceeds makes refused

theorem filesAfter_of_product {parsed : Flag.Parsed} {w : FileWrite}
    (certain : ∀ e, ¬(refusals arguments).before e)
    (read : Flag.parse o.flags arguments = .ok parsed) (proceeds : parsed.isOn "help" = false)
    (made : product files parsed = .ok w) (printer : Printer) :
    filesAfter command printer files arguments = files.write w := by
  obtain ⟨write, ending, after⟩ := exists_ending printer (produces files arguments)
  rw [requested_of_proceeding read proceeds, made] at ending
  rw [after]
  generalize resultOf command printer files arguments = result at ending
  cases ending with
  | succeeds same | refusedAfter _ same =>
      cases same
      rfl
  | fails impossible => cases impossible
  | refusedBefore refused => exact absurd refused (certain _)

end Produces

namespace Effect

variable {refusals : Refusals} {o : Outline}
  {product : FileStore → Flag.Parsed → Except Error FileWrite} {files after : FileStore}
  {arguments : List Text} {result : Except Error Unit}
  (effect : Effect refusals o product files arguments result after)

include effect

theorem unchanged_of_failure {e : Error} (failed : result = .error e)
    (other : ¬refusals.after e) : after = files := by
  subst failed
  cases effect with
  | fails => rfl
  | refused _ _ _ refused => exact absurd refused other

theorem unchanged_of_help {parsed : Flag.Parsed}
    (read : Flag.parse o.flags arguments = .ok parsed) (help : parsed.isOn "help" = true) :
    after = files := by
  cases effect with
  | fails | helps => rfl
  | produces same proceeds | refused same proceeds =>
      cases read.symm.trans same
      rw [help] at proceeds
      cases proceeds

theorem unchanged_or_product : after = files ∨ ∃ parsed w,
    Flag.parse o.flags arguments = .ok parsed ∧ product files parsed = .ok w ∧
      after = files.write w := by
  cases effect with
  | fails | helps => exact .inl rfl
  | produces read _ made | refused read _ made => exact .inr ⟨_, _, read, made, rfl⟩

theorem product_of_success (succeeded : result = .ok ()) :
    ∃ parsed, Flag.parse o.flags arguments = .ok parsed ∧
      (parsed.isOn "help" = false → ∃ w, product files parsed = .ok w ∧ after = files.write w) := by
  subst succeeded
  cases effect with
  | helps read help => exact ⟨_, read, fun proceeds => by simp [help] at proceeds⟩
  | produces read _ made => exact ⟨_, read, fun _ => ⟨_, made, rfl⟩⟩

end Effect

end Calls

end Asm64.Command
