import Asm64.Proofs.InPlace
import Asm64.Proofs.Object.Obtainable

/-!
# Locating and linking in place

Objects are changed step by step, a byte at a time, and a step that fails does not take back those
before it.  Locating looks at every relocation before it writes the first byte, and linking works
on a copy of the first object until nothing can fail any more.  So a failure leaves the first
object as it was, and the second one as it was or located.

There is one exception.  A field whose end is past the largest 64-bit number looks as if it lay in
the code, and storing fails when it gets there.  Bytes that were stored before stay.
-/

namespace Asm64

namespace Object

open InPlace

/-! ### Locating -/

/-- Finds out what is to be done about a relocation of the object as it is now. -/
def look (undefined : Undefined) (r : Relocation) : InPlace Object LocateError Resolution := do
  match (← get).resolve undefined r with
  | .ok resolution => return resolution
  | .error e => throw e

/-- Stores bytes one after another.  There is no room for a byte behind the code. -/
def store (offset : Nat) : List UInt8 → InPlace Object LocateError Unit
  | [] => return
  | b :: rest => do
    if offset < (← get).code.length then
      modify fun o => { o with code := o.code.set offset b }
      store (offset + 1) rest
    else throw .malformed

def locateInPlace (undefined : Undefined) : InPlace Object LocateError Unit := do
  let resolutions ← (← get).relocations.mapM (look undefined)
  (resolutions.filterMap (·.patch)).forM fun p => store p.offset p.bytes
  modify fun o => { o with relocations := resolutions.filterMap (·.remains) }

theorem runOn_look (undefined : Undefined) (r : Relocation) (o : Object) :
    runOn (look undefined r) o = (o.resolve undefined r, o) := by
  rw [look, runOn_bind, runOn_get]
  dsimp only
  cases o.resolve undefined r <;> rfl

theorem runOn_mapM_look (undefined : Undefined) (relocations : List Relocation) (o : Object) :
    runOn (relocations.mapM (look undefined)) o =
      (relocations.mapM (o.resolve undefined), o) := by
  induction relocations with
  | nil => rfl
  | cons r rest inductionHypothesis =>
      rw [List.mapM_cons, List.mapM_cons, runOn_bind, runOn_look]
      cases o.resolve undefined r with
      | error e => rfl
      | ok resolution =>
          dsimp only
          rw [runOn_bind, inductionHypothesis]
          cases rest.mapM (o.resolve undefined) <;> rfl

theorem runOn_store (offset : Nat) (bytes : List UInt8) (o : Object) :
    runOn (store offset bytes) o =
      (if bytes.length = 0 ∨ offset + bytes.length ≤ o.code.length then .ok ()
        else .error .malformed,
        { o with code := overwrite o.code offset bytes }) := by
  induction bytes generalizing offset o with
  | nil => rfl
  | cons b rest inductionHypothesis =>
      rw [store, runOn_bind, runOn_get]
      dsimp only
      by_cases room : offset < o.code.length
      · rw [if_pos room, runOn_bind, runOn_modify]
        dsimp only
        rw [inductionHypothesis, List.length_set, overwrite]
        congr 1
        exact if_congr (by rw [List.length_cons]; omega) rfl rfl
      · rw [if_neg room, if_neg (by rw [List.length_cons]; omega),
          overwrite_of_length_le (not_lt.mp room)]
        rfl

theorem runOn_store_bytes (p : Patch) (o : Object) :
    runOn (store p.offset p.bytes) o =
      (if p.fits o.code.length then .ok () else .error .malformed,
        { o with code := p.apply o.code }) := by
  rw [runOn_store, Patch.apply]
  simp only [Patch.length_bytes, Patch.fits_eq_true_iff]

theorem runOn_forM_store (patches : List Patch) (o : Object) :
    runOn (patches.forM fun p => store p.offset p.bytes) o =
      match Patch.applyAll o.code patches with
      | .ok code => (.ok (), { o with code })
      | .error code => (.error .malformed, { o with code }) := by
  induction patches generalizing o with
  | nil => rfl
  | cons p rest inductionHypothesis =>
      change runOn (store p.offset p.bytes >>= fun _ => rest.forM _) o = _
      rw [runOn_bind, runOn_store_bytes, Patch.applyAll]
      by_cases fits : p.fits o.code.length = true
      · rw [if_pos fits, if_pos fits]
        exact inductionHypothesis _
      · rw [if_neg fits, if_neg fits, Patch.apply_clip]

theorem runOn_locateInPlace (undefined : Undefined) (o : Object) :
    runOn (locateInPlace undefined) o =
      ((o.locateOutcome undefined).result, (o.locateOutcome undefined).object) := by
  rw [locateInPlace, runOn_bind, runOn_get]
  dsimp only
  rw [runOn_bind, runOn_mapM_look, locateOutcome]
  cases o.relocations.mapM (o.resolve undefined) with
  | error e => rfl
  | ok resolutions =>
      dsimp only
      rw [runOn_bind, runOn_forM_store]
      cases Patch.applyAll o.code (resolutions.filterMap (·.patch)) <;> rfl

/-! ### Linking -/

/-- Two objects that are linked, and the copy of the first one that the second is appended to. -/
structure Workspace where
  first : Object
  second : Object
  merged : Object

def onMerged (work : InPlace Object LocateError Unit) : InPlace Workspace LinkError Unit :=
  onPart (·.merged) (fun w merged => { w with merged }) .locate work

def onSecond (work : InPlace Object LocateError Unit) : InPlace Workspace LinkError Unit :=
  onPart (·.second) (fun w second => { w with second }) .locate work

/-- Appends the second object, which has been located, to the copy. -/
def appendInPlace : InPlace Workspace LinkError Unit := do
  let w ← get
  match w.merged.clash? w.second with
  | some name => throw (.redefined name)
  | none =>
    onMerged (modify (pad linkAlignment))
    modify fun w => { w with merged := w.merged.append w.second }
    onMerged (locateInPlace .kept)
    modify fun w => { w with first := w.merged }

def linkInPlace : InPlace Workspace LinkError Unit := do
  modify fun w => { w with merged := w.first }
  onMerged (locateInPlace .kept)
  onSecond (locateInPlace .kept)
  appendInPlace

theorem runOn_onPart_locateInPlace (part : Workspace → Object)
    (replace : Workspace → Object → Workspace) (w : Workspace) :
    runOn (onPart part replace LinkError.locate (locateInPlace .kept)) w =
      match (part w).locatePartially with
      | .ok located => (.ok (), replace w located)
      | .error e => (.error (.locate e), replace w ((part w).locateOutcome .kept).object) := by
  rw [runOn_onPart, runOn_locateInPlace, locateOutcome_result_eq, locatePartially]
  cases ended : (part w).locateWith .kept with
  | ok located =>
      rw [locateOutcome_eq_of_ok ended]
      rfl
  | error e => rfl

/-- The first object is replaced at the very end. -/
theorem runOn_appendInPlace (w : Workspace) :
    ∃ merged, runOn appendInPlace w =
      match w.merged.linkLocated w.second with
      | .ok linked => (.ok (), ⟨linked, w.second, merged⟩)
      | .error e => (.error e, ⟨w.first, w.second, merged⟩) := by
  rw [appendInPlace, runOn_bind, runOn_get, linkLocated]
  dsimp only
  cases w.merged.clash? w.second with
  | some name => exact ⟨w.merged, rfl⟩
  | none =>
      dsimp only
      rw [runOn_bind, onMerged, runOn_onPart, runOn_modify]
      dsimp only [Except.mapError]
      rw [runOn_bind, runOn_modify]
      dsimp only
      rw [runOn_bind, onMerged, runOn_onPart_locateInPlace]
      dsimp only
      cases ((w.merged.pad linkAlignment).append w.second).locatePartially with
      | error e => exact ⟨_, rfl⟩
      | ok linked => exact ⟨linked, rfl⟩

theorem runOn_linkInPlace (w : Workspace) :
    ∃ merged, runOn linkInPlace w =
      match (w.first.link w.second).result with
      | .ok linked => (.ok (), ⟨linked, (w.first.link w.second).other, merged⟩)
      | .error e => (.error e, ⟨w.first, (w.first.link w.second).other, merged⟩) := by
  rw [linkInPlace, runOn_bind, runOn_modify, link]
  dsimp only
  rw [runOn_bind, onMerged, runOn_onPart_locateInPlace]
  dsimp only
  cases w.first.locatePartially with
  | error e => exact ⟨_, rfl⟩
  | ok first =>
      dsimp only
      rw [runOn_bind, onSecond, runOn_onPart_locateInPlace]
      dsimp only
      cases w.second.locatePartially with
      | error e => exact ⟨first, rfl⟩
      | ok second => exact runOn_appendInPlace ⟨w.first, second, first⟩

/-! ### Failures -/

theorem exists_clash_iff {a b : Object} :
    (∃ name, a.clash? b = some name) ↔ ∃ name, name ∈ a.publicNames ∧ name ∈ b.publicNames := by
  rw [← Option.isSome_iff_exists, ← Option.ne_none_iff_isSome, Ne, clash?_eq_none_iff]
  simp only [not_forall, not_not, exists_prop]
  exact exists_congr fun name => and_comm

/-- Names clash only when both objects have been located. -/
theorem link_eq_redefined_iff {a b : Object} {name : Text} :
    (a.link b).result = .error (.redefined name) ↔
      (∃ located, a.locatePartially = .ok located) ∧
        (∃ located, b.locatePartially = .ok located) ∧ a.clash? b = some name := by
  unfold link
  cases locatedA : a.locatePartially with
  | error e => simp
  | ok first =>
      cases locatedB : b.locatePartially with
      | error e => simp
      | ok second =>
          obtain ⟨-, rfl⟩ := locatePartially_eq_ok_iff.mp locatedA
          obtain ⟨-, rfl⟩ := locatePartially_eq_ok_iff.mp locatedB
          have sameClash : a.written.clash? b.written = a.clash? b := rfl
          simp only [linkLocated, sameClash]
          cases a.clash? b with
          | some other => simp
          | none => simp [mapError_eq_error_iff]

theorem link_other_of_error {a b : Object} {e : LinkError} (failed : (a.link b).result = .error e) :
    (a.link b).other = b ∨ b.locatePartially = .ok (a.link b).other ∨
      e = .locate .malformed ∧ b.Interrupted (a.link b).other := by
  unfold link at failed ⊢
  split at failed
  · exact Or.inl rfl
  · split at failed
    · rename_i unlocated
      cases failed
      rcases locateOutcome_of_error unlocated with whole | ⟨rfl, interrupted⟩
      · exact Or.inl whole
      · exact Or.inr (Or.inr ⟨rfl, interrupted⟩)
    · rename_i located
      exact Or.inr (Or.inl located)

/-- Locating that fails changes nothing, and linking that fails leaves the first object as it was
and the second one as it was or located.  It is different only if writing was interrupted, which
takes a field whose end is past the largest 64-bit number.  Whatever happens, labels and lengths
stay.  That a label is redefined is found out exactly if both objects can be located and make a name
public. -/
theorem failures_leave_objects_whole (a b : Object) :
    (∀ undefined result after, runOn (locateInPlace undefined) a = (result, after) →
      result = (a.locateWith undefined).map (fun _ => ()) ∧
      (∀ located, a.locateWith undefined = .ok located → after = located) ∧
      (∀ e, result = .error e → after = a ∨ e = .malformed ∧ a.Interrupted after) ∧
      after.labels = a.labels ∧ after.code.length = a.code.length) ∧
    ∀ merged result after, runOn linkInPlace ⟨a, b, merged⟩ = (result, after) →
      result = (a.link b).result.map (fun _ => ()) ∧ after.second = (a.link b).other ∧
      (∀ linked, (a.link b).result = .ok linked → after.first = linked) ∧
      (∀ e, result = .error e →
        after.first = a ∧ (after.second = b ∨ b.locatePartially = .ok after.second ∨
          e = .locate .malformed ∧ b.Interrupted after.second)) ∧
      after.second.labels = b.labels ∧ after.second.code.length = b.code.length ∧
      ((∃ name, result = .error (.redefined name)) ↔
        (∃ located, a.locatePartially = .ok located) ∧
        (∃ located, b.locatePartially = .ok located) ∧
        ∃ name, name ∈ a.publicNames ∧ name ∈ b.publicNames) := by
  constructor
  · intro undefined result after ran
    rw [runOn_locateInPlace] at ran
    obtain ⟨rfl, rfl⟩ := Prod.mk.inj ran
    refine ⟨locateOutcome_result_eq undefined a, ?_, ?_, locateOutcome_labels undefined a,
      length_locateOutcome_code undefined a⟩
    · intro located succeeded
      rw [locateOutcome_eq_of_ok succeeded]
    · intro e failed
      rw [locateOutcome_result_eq] at failed
      exact locateOutcome_of_error (map_eq_error_iff.mp failed)
  · intro merged result after ran
    have redefined : (∃ name, (a.link b).result = .error (.redefined name)) ↔
        (∃ located, a.locatePartially = .ok located) ∧
        (∃ located, b.locatePartially = .ok located) ∧
        ∃ name, name ∈ a.publicNames ∧ name ∈ b.publicNames := by
      simp only [link_eq_redefined_iff, exists_and_left, exists_clash_iff]
    obtain ⟨last, same⟩ := runOn_linkInPlace ⟨a, b, merged⟩
    rw [same] at ran
    cases ended : (a.link b).result with
    | ok linked =>
        simp only [ended] at ran redefined
        cases ran
        exact ⟨rfl, rfl, fun _ same => Except.ok.inj same, fun _ impossible => (nomatch impossible),
          link_other_labels a b, length_link_other a b, by simpa using redefined⟩
    | error e =>
        simp only [ended] at ran redefined
        cases ran
        refine ⟨rfl, rfl, fun _ impossible => (nomatch impossible), ?_, link_other_labels a b,
          length_link_other a b, by simpa using redefined⟩
        rintro _ ⟨⟩
        exact ⟨rfl, link_other_of_error ended⟩

/-! A short jump to a label of the other object, which turns out to be too far away when everything
else has been done.  Both objects have a field of their own that is written before. -/

def sampleNear : Object :=
  ⟨[235, 0, 235, 0], [⟨ascii "here", 0, false⟩],
    [⟨ascii "here", 1, 1, 2, false⟩, ⟨ascii "there", 3, 1, 4, false⟩]⟩

def sampleDistant : Object :=
  ⟨[235, 0] ++ List.replicate 150 144, [⟨ascii "there", 150, true⟩, ⟨ascii "here", 0, false⟩],
    [⟨ascii "here", 1, 1, 2, false⟩]⟩

theorem failures_leave_objects_whole_sample :
    ∃ result after,
      runOn linkInPlace ⟨sampleNear, sampleDistant, .empty⟩ = (result, after) ∧
      result = .error (.locate (.tooFar (ascii "there") 162 8)) ∧
      after.merged.code.take 2 = [235, 254] ∧ after.first = sampleNear ∧
      after.second.code.take 2 = [235, 254] ∧
      sampleDistant.locatePartially = .ok after.second := by
  have failed : (runOn linkInPlace ⟨sampleNear, sampleDistant, .empty⟩).1 =
      .error (.locate (.tooFar (ascii "there") 162 8)) := by decide +kernel
  have copied : (runOn linkInPlace ⟨sampleNear, sampleDistant, .empty⟩).2.merged.code.take 2 =
      [235, 254] := by decide +kernel
  have located : (runOn linkInPlace ⟨sampleNear, sampleDistant, .empty⟩).2.second.code.take 2 =
      [235, 254] := by decide +kernel
  have unwritten : sampleDistant.code.take 2 = [235, 0] := by decide +kernel
  obtain ⟨-, -, -, whole, -⟩ := (failures_leave_objects_whole sampleNear sampleDistant).2 .empty _ _
    Prod.mk.eta.symm
  obtain ⟨first, second⟩ := whole _ failed
  refine ⟨_, _, Prod.mk.eta.symm, failed, copied, first, located, ?_⟩
  rcases second with same | settled | ⟨impossible, -⟩
  · rw [same, unwritten] at located
    exact absurd located (by decide)
  · exact settled
  · cases impossible

/-! Two fields, of which the second starts at the largest 64-bit number. -/

def sampleOverrun : Object :=
  ⟨[0, 0], [⟨ascii "here", 0, false⟩],
    [⟨ascii "here", 0, 1, 1, false⟩, ⟨ascii "here", 2 ^ 63 - 1, 1, 0, false⟩]⟩

/-- What was written before an interruption stays, both in the object that is located and in the
second one of two objects that are linked. -/
theorem interruptions_leave_writes :
    (∃ after, runOn (locateInPlace .refused) sampleOverrun = (.error .malformed, after) ∧
      after.code = [255, 0] ∧ after ≠ sampleOverrun) ∧
    ∃ after, runOn linkInPlace ⟨.empty, sampleOverrun, .empty⟩ =
        (.error (.locate .malformed), after) ∧
      after.second.code = [255, 0] ∧ after.second ≠ sampleOverrun ∧
      sampleOverrun.locatePartially ≠ .ok after.second := by
  have located : runOn (locateInPlace .refused) sampleOverrun =
      (.error .malformed, { sampleOverrun with code := [255, 0] }) := by decide +kernel
  have failed : (runOn linkInPlace ⟨.empty, sampleOverrun, .empty⟩).1 =
      .error (.locate .malformed) := by decide +kernel
  have second : (runOn linkInPlace ⟨.empty, sampleOverrun, .empty⟩).2.second =
      { sampleOverrun with code := [255, 0] } := by decide +kernel
  refine ⟨⟨_, located, rfl, by decide⟩,
    (runOn linkInPlace ⟨.empty, sampleOverrun, .empty⟩).2, Prod.ext failed rfl, ?_⟩
  rw [second]
  exact ⟨rfl, by decide, by decide +kernel⟩

end Object

end Asm64
