import Asm64.Directive
import Asm64.Proofs.InPlace
import Asm64.Proofs.Word

/-!
# Directives in place

A directive changes an object step by step: it sets one label, or adds bytes one at a time, each
byte of a number shifted out of it.  Whatever can fail is looked at before the first step, so a
built-in directive ends as if it were performed in one go.
-/

namespace Asm64.Directive

open InPlace

/-! ### Step by step -/

def appendByte (b : UInt8) : InPlace Object Flaw Unit :=
  modify fun o => { o with code := o.code ++ [b] }

/-- Adds `count` bytes of a number from the one at `position` on, the low one being the first. -/
def appendNumber (u : UInt64) : (position count : Nat) → InPlace Object Flaw Unit
  | _, 0 => return
  | position, count + 1 => do
    appendByte (u >>> UInt64.ofNat (8 * position)).toUInt8
    appendNumber u (position + 1) count

/-- Makes the first label of a name public, of those from `position` on. -/
def publishInPlace (name : Text) : (position : Nat) → List Label → InPlace Object Flaw Unit
  | _, [] => throw (.undefinedLabel name)
  | position, l :: rest =>
    if l.name = name then
      modify fun o => { o with labels := o.labels.set position { l with isPublic := true } }
    else publishInPlace name (position + 1) rest

def checkValue (name : Text) (width : Width) (field : Text) : InPlace Object Flaw Integer :=
  match readValue name width field with
  | .ok i => return i
  | .error flaw => throw flaw

def globalInPlace (arguments : Text) : InPlace Object Flaw Unit := do
  if Text.isIdentifier arguments then publishInPlace arguments 0 (← get).labels
  else throw (.invalidLabel arguments)

def dataInPlace (name : Text) (width : Width) (arguments : Text) : InPlace Object Flaw Unit := do
  match Text.fields arguments with
  | [] => throw .noValues
  | fields =>
    let values ← fields.mapM (checkValue name width)
    values.forM fun i => appendNumber i.toUInt64 0 width.bytes

def utf8InPlace (arguments : Text) : InPlace Object Flaw Unit := do
  match unquote arguments with
  | .ok text =>
    text.forM appendByte
    appendByte 0
  | .error flaw => throw (.string flaw)

def alignInPlace (alignment : Nat) (arguments : Text) : InPlace Object Flaw Unit := do
  if arguments.isEmpty then
    let excess := (← get).code.length % alignment
    if excess = 0 then return
    else (List.replicate (alignment - excess) 0).forM appendByte
  else throw (.unexpectedOperands arguments)

/-- A directive of a caller's does what it likes before it fails. -/
def customInPlace (run : CustomDirective) (arguments : Text) : InPlace Object Flaw Unit := do
  let (changed, reason) := run (← get) arguments
  set changed
  match reason with
  | none => return
  | some reason => throw (.custom reason)

def Action.performInPlace (name arguments : Text) : Action → InPlace Object Flaw Unit
  | .global => globalInPlace arguments
  | .data width => dataInPlace name width arguments
  | .utf8 => utf8InPlace arguments
  | .align alignment => alignInPlace alignment arguments
  | .custom run => customInPlace run arguments
  | .unassigned number => throw (.unassigned number)

def applyInPlace (d : Directive) (arguments : Text) : InPlace Object Error Unit :=
  onPart id (fun _ o => o) (Error.mk d.name) (d.action.performInPlace d.name (Text.trim arguments))

/-! ### Each step -/

theorem runOn_forM_appendByte (bytes : List UInt8) (o : Object) :
    runOn (bytes.forM appendByte) o = (.ok (), { o with code := o.code ++ bytes }) := by
  induction bytes generalizing o with
  | nil =>
      rw [List.append_nil]
      rfl
  | cons b rest inductionHypothesis =>
      change runOn (appendByte b >>= fun _ => rest.forM _) o = _
      rw [runOn_bind, appendByte, runOn_modify]
      dsimp only
      rw [inductionHypothesis, List.append_assoc, List.singleton_append]

theorem runOn_appendNumber {position count : Nat} (u : UInt64) (narrow : position + count ≤ 8)
    (o : Object) :
    runOn (appendNumber u position count) o =
      (.ok (), { o with code := o.code ++ littleEndian count (u.toNat / 256 ^ position) }) := by
  induction count generalizing position o with
  | zero =>
      rw [littleEndian, List.append_nil]
      rfl
  | succ count inductionHypothesis =>
      have byte : (u >>> UInt64.ofNat (8 * position)).toUInt8 =
          UInt8.ofNat (u.toNat / 256 ^ position) := by
        have shift : (UInt64.ofNat (8 * position)).toNat = 8 * position :=
          UInt64.toNat_ofNat_of_lt' (by norm_num; omega)
        have small : 8 * position % 64 = 8 * position := Nat.mod_eq_of_lt (by omega)
        apply UInt8.toNat_inj.mp
        rw [UInt64.toNat_toUInt8, UInt64.toNat_shiftRight, shift, small, UInt8.toNat_ofNat',
          Nat.shiftRight_eq_div_pow, pow_mul]
        norm_num
      rw [appendNumber, runOn_bind, appendByte, runOn_modify]
      dsimp only
      rw [inductionHypothesis (by omega), List.append_assoc, byte, littleEndian, Nat.div_div_eq_div_mul,
        pow_succ]
      rfl

theorem runOn_forM_appendNumber (width : Width) (values : List Integer) (o : Object) :
    runOn (values.forM fun i => appendNumber i.toUInt64 0 width.bytes) o =
      (.ok (), { o with code := o.code ++ dataBytes width values }) := by
  induction values generalizing o with
  | nil =>
      rw [dataBytes, List.flatMap_nil, List.append_nil]
      rfl
  | cons i rest inductionHypothesis =>
      have narrow : 0 + width.bytes ≤ 8 := by
        rw [Nat.zero_add]
        exact width.bytes_le
      change runOn (appendNumber i.toUInt64 0 width.bytes >>= fun _ => rest.forM _) o = _
      rw [runOn_bind, runOn_appendNumber i.toUInt64 narrow]
      dsimp only
      rw [inductionHypothesis, pow_zero, Nat.div_one, List.append_assoc]
      rfl

theorem runOn_publishInPlace {name : Text} {front labels : List Label} {o : Object}
    (whole : o.labels = front ++ labels) :
    runOn (publishInPlace name front.length labels) o =
      match publish name labels with
      | some published => (.ok (), { o with labels := front ++ published })
      | none => (.error (.undefinedLabel name), o) := by
  induction labels generalizing front with
  | nil => rfl
  | cons l rest inductionHypothesis =>
      by_cases named : l.name = name
      · rw [publishInPlace, if_pos named, publish, if_pos named, runOn_modify, whole,
          List.set_append_right _ _ le_rfl, Nat.sub_self, List.set_cons_zero]
      · have shifted : o.labels = (front ++ [l]) ++ rest := by
          rw [whole, List.append_assoc, List.singleton_append]
        have later := inductionHypothesis shifted
        rw [List.length_append, List.length_singleton] at later
        rw [publishInPlace, if_neg named, publish, if_neg named, later]
        cases publish name rest with
        | none => rfl
        | some published =>
            dsimp only [Option.map_some]
            rw [List.append_assoc, List.singleton_append]

theorem runOn_mapM_checkValue (name : Text) (width : Width) (fields : List Text) (o : Object) :
    runOn (fields.mapM (checkValue name width)) o =
      (fields.mapM (readValue name width), o) := by
  induction fields with
  | nil => rfl
  | cons field rest inductionHypothesis =>
      rw [List.mapM_cons, List.mapM_cons, runOn_bind, checkValue]
      cases readValue name width field with
      | error flaw => rfl
      | ok i =>
          rw [runOn_pure]
          dsimp only
          rw [runOn_bind, inductionHypothesis]
          cases rest.mapM (readValue name width) <;> rfl

/-! ### The whole directive -/

/-- How work ends that does in place what is otherwise done in one go. -/
def atOnce (o : Object) : Except Flaw Object → Except Flaw Unit × Object
  | .ok changed => (.ok (), changed)
  | .error flaw => (.error flaw, o)

section

variable (arguments : Text) (o : Object)

theorem runOn_globalInPlace :
    runOn (globalInPlace arguments) o = atOnce o (applyGlobal o arguments) := by
  unfold globalInPlace applyGlobal
  cases Text.isIdentifier arguments with
  | false => rfl
  | true =>
      have whole : o.labels = [] ++ o.labels := rfl
      rw [if_pos rfl, runOn_bind, runOn_get]
      dsimp only
      rw [← List.length_nil, runOn_publishInPlace whole]
      cases publish arguments o.labels <;> rfl

theorem runOn_dataInPlace (name : Text) (width : Width) :
    runOn (dataInPlace name width arguments) o = atOnce o (applyData name width o arguments) := by
  unfold dataInPlace applyData
  cases Text.fields arguments with
  | nil => rfl
  | cons field rest =>
      dsimp only
      rw [runOn_bind, runOn_mapM_checkValue]
      cases (field :: rest).mapM (readValue name width) with
      | error flaw => rfl
      | ok values => exact runOn_forM_appendNumber width values o

theorem runOn_utf8InPlace : runOn (utf8InPlace arguments) o = atOnce o (applyUtf8 o arguments) := by
  unfold utf8InPlace applyUtf8
  cases unquote arguments with
  | error flaw => rfl
  | ok text =>
      dsimp only
      rw [runOn_bind, runOn_forM_appendByte]
      rfl

theorem runOn_alignInPlace (alignment : Nat) :
    runOn (alignInPlace alignment arguments) o = atOnce o (applyAlign alignment o arguments) := by
  unfold alignInPlace applyAlign
  cases arguments with
  | cons first rest => rfl
  | nil =>
      rw [List.isEmpty_nil, if_pos rfl, if_pos rfl, runOn_bind, runOn_get, Object.pad, paddingFor]
      dsimp only
      by_cases aligned : o.code.length % alignment = 0
      · rw [if_pos aligned, aligned, Nat.sub_zero, Nat.mod_self, List.replicate_zero,
          List.append_nil]
        rfl
      · have below : (alignment - o.code.length % alignment) % alignment =
            alignment - o.code.length % alignment := by
          rcases Nat.eq_zero_or_pos alignment with rfl | positive
          · exact Nat.mod_zero _
          · exact Nat.mod_eq_of_lt (by omega)
        rw [if_neg aligned, runOn_forM_appendByte, below]
        rfl

end

def Outcome.result (outcome : Outcome) : Except Error Unit :=
  match outcome.error with
  | none => .ok ()
  | some e => .error e

theorem runOn_applyInPlace (d : Directive) (arguments : Text) (o : Object) :
    runOn (d.applyInPlace arguments) o =
      ((d.apply o arguments).result, (d.apply o arguments).object) := by
  have ended {work : InPlace Object Flaw Unit} {result : Except Flaw Object}
      (ran : runOn work o = atOnce o result) :
      runOn (onPart id (fun _ o => o) (Error.mk d.name) work) o =
        ((Outcome.ofExcept d.name o result).result, (Outcome.ofExcept d.name o result).object) := by
    rw [runOn_onPart, id, ran]
    cases result <;> rfl
  unfold applyInPlace apply
  cases d.action with
  | global => exact ended (runOn_globalInPlace _ o)
  | data width => exact ended (runOn_dataInPlace _ o d.name width)
  | utf8 => exact ended (runOn_utf8InPlace _ o)
  | align alignment => exact ended (runOn_alignInPlace _ o alignment)
  | custom run =>
      rw [runOn_onPart]
      dsimp only [id, Action.performInPlace, customInPlace]
      rw [runOn_bind, runOn_get]
      dsimp only
      cases run o (Text.trim arguments) with
      | mk changed reason => cases reason <;> rfl
  | unassigned number => rfl

end Asm64.Directive
