import Asm64.Proofs.Patch
import Asm64.Proofs.Success
import Asm64.Proofs.Word

/-!
# What locating does

Locating succeeds when every relocation with a target can be written, and, if undefined labels
are refused, when every relocation has a target.  The result is then given by two lists: the
patches for the relocations that have a target, and the relocations that remain.
-/

namespace Asm64

namespace Relocation

/-- The distance to a label, at the place of the field. -/
def patchTo (r : Relocation) (l : Label) : Patch :=
  ⟨r.offset.toNat, r.size.toNat, twosComplement (r.distance l)⟩

/-- The field is one of the usual sizes, and lies in code of the given length before the offset
that distances are measured from. -/
structure InBounds (r : Relocation) (length : Nat) : Prop where
  size : r.size = 1 ∨ r.size = 2 ∨ r.size = 4 ∨ r.size = 8
  offset : 0 ≤ r.offset
  field : r.offset + r.size ≤ r.relativeTo
  relativeTo : r.relativeTo ≤ length

/-- The field is one of the usual sizes, and lies in code of the given length. -/
structure InCode (r : Relocation) (length : Nat) : Prop where
  size : r.size = 1 ∨ r.size = 2 ∨ r.size = 4 ∨ r.size = 8
  offset : 0 ≤ r.offset
  field : r.offset + r.size ≤ length

theorem InBounds.inCode {r : Relocation} {length : Nat} (bounds : r.InBounds length) :
    r.InCode length :=
  ⟨bounds.size, bounds.offset, bounds.field.trans bounds.relativeTo⟩

def Covers (r : Relocation) (position : Nat) : Prop :=
  r.offset ≤ position ∧ position < r.offset + r.size

def field (r : Relocation) (code : List UInt8) : List UInt8 :=
  (code.drop r.offset.toNat).take r.size.toNat

def Disjoint (r s : Relocation) : Prop := ∀ position, r.Covers position → ¬ s.Covers position

instance : Std.Symm Disjoint where
  symm _ _ disjoint position covers other := disjoint position other covers

theorem disjoint_of_ordered {r s : Relocation} (ordered : r.offset + r.size ≤ s.offset) :
    r.Disjoint s := by
  rintro position ⟨-, covered⟩ ⟨reached, -⟩
  omega

/-- The distance to the label is in the signed range of the field. -/
def Reaches (r : Relocation) (l : Label) : Prop :=
  -256 ^ r.size.toNat ≤ 2 * (l.value - r.relativeTo) ∧
    2 * (l.value - r.relativeTo) < 256 ^ r.size.toNat

end Relocation

/-- The label lies in code of the given length, or right behind it. -/
structure Label.InBounds (l : Label) (length : Nat) : Prop where
  nonnegative : 0 ≤ l.value
  bounded : l.value ≤ length

/-- Signed 64-bit numbers can hold every offset into the code, as they can for any code that is in
memory. -/
def Addressable (length : Nat) : Prop := length < 2 ^ 63

theorem Addressable.mono {shorter longer : Nat} (addressable : Addressable longer)
    (bounded : shorter ≤ longer) : Addressable shorter :=
  Nat.lt_of_le_of_lt bounded addressable

/-- The value is an offset that a signed 64-bit number can hold. -/
def IsOffset (value : Int) : Prop := 0 ≤ value ∧ value < 2 ^ 63

theorem Label.InBounds.isOffset {l : Label} {length : Nat} (bounds : l.InBounds length)
    (addressable : Addressable length) : IsOffset l.value := by
  obtain ⟨nonnegative, bounded⟩ := bounds
  unfold Addressable at addressable
  exact ⟨nonnegative, by omega⟩

theorem Relocation.InBounds.isOffset {r : Relocation} {length : Nat} (bounds : r.InBounds length)
    (addressable : Addressable length) : IsOffset r.relativeTo := by
  obtain ⟨size, offset, field, relativeTo⟩ := bounds
  unfold Addressable at addressable
  exact ⟨by omega, by omega⟩

theorem Relocation.distance_eq {r : Relocation} {l : Label} (measured : IsOffset r.relativeTo)
    (labelled : IsOffset l.value) : r.distance l = l.value - r.relativeTo := by
  obtain ⟨low, high⟩ := measured
  obtain ⟨labelLow, labelHigh⟩ := labelled
  apply wrap64_eq_self <;> omega

theorem Relocation.bytes_patchTo (r : Relocation) (l : Label) :
    (r.patchTo l).bytes = littleEndian r.size.toNat (twosComplement (r.distance l)) := rfl

theorem Relocation.length_patchTo (r : Relocation) (l : Label) :
    (r.patchTo l).bytes.length = r.size.toNat :=
  Patch.length_bytes _

theorem Relocation.covers_patchTo_iff {r : Relocation} {length : Nat} (inCode : r.InCode length)
    (l : Label) (position : Nat) : (r.patchTo l).Covers position ↔ r.Covers position := by
  obtain ⟨size, offset, field⟩ := inCode
  rw [Patch.Covers, Relocation.length_patchTo, Relocation.patchTo, Relocation.Covers]
  dsimp only
  omega

theorem Relocation.patchTo_within {r : Relocation} {length : Nat} (inCode : r.InCode length)
    (l : Label) : (r.patchTo l).offset + (r.patchTo l).bytes.length ≤ length := by
  obtain ⟨size, offset, field⟩ := inCode
  rw [Relocation.length_patchTo, Relocation.patchTo]
  dsimp only
  omega

namespace Object

/-- There is nothing wrong with writing the distance to the label, as far as looking shows. -/
def Passes (o : Object) (r : Relocation) (l : Label) : Prop := o.patch r l = .ok (r.patchTo l)

/-- The relocation can be written with the distance to the label. -/
def Writable (o : Object) (r : Relocation) (l : Label) : Prop :=
  o.Passes r l ∧ (r.patchTo l).fits o.code.length

theorem patch_eq_ok_iff {o : Object} {r : Relocation} {l : Label} {p : Patch} :
    o.patch r l = .ok p ↔ o.Passes r l ∧ p = r.patchTo l := by
  unfold Passes patch
  split
  · simp
  · split
    · simp
    · split
      · simp
      · simp [Relocation.patchTo, eq_comm]

/-- Of a relocation that lies in the code, only the distance can be wrong. -/
theorem patch_of_inCode {o : Object} {r : Relocation} (addressable : Addressable o.code.length)
    (inCode : r.InCode o.code.length) (l : Label) :
    o.patch r l =
      if r.holds (r.distance l) then .ok (r.patchTo l)
      else .error (.tooFar r.label (r.distance l) r.bits) := by
  obtain ⟨size, offset, field⟩ := inCode
  unfold Addressable at addressable
  have fieldEnd : wrap64 (r.offset + r.size) = r.offset + r.size := by
    apply wrap64_eq_self <;> omega
  have bits : r.bits = 8 * r.size := by
    apply wrap64_eq_self <;> omega
  have inside : ¬ (r.offset < 0 ∨ (o.code.length : Int) < wrap64 (r.offset + r.size)) := by
    rw [fieldEnd]
    omega
  have formed : ¬ r.bits ≤ 0 := by
    rw [bits]
    omega
  rw [patch, if_neg inside, if_neg formed]
  cases r.holds (r.distance l) <;> rfl

theorem fits_patchTo {r : Relocation} {length : Nat} (inCode : r.InCode length) (l : Label) :
    (r.patchTo l).fits length := by
  have within := Relocation.patchTo_within inCode l
  rw [Patch.length_bytes] at within
  exact Patch.fits_eq_true_iff.mpr (Or.inr within)

/-- A field that does not lie in the code passes only if its end is past every 64-bit number. -/
theorem overflows_of_passes {o : Object} {r : Relocation} {l : Label} (passes : o.Passes r l)
    (overruns : (r.patchTo l).fits o.code.length = false) : 2 ^ 63 ≤ r.offset + r.size := by
  have inside : ¬ (r.offset < 0 ∨ o.code.length < wrap64 (r.offset + r.size)) := by
    intro outside
    rw [Passes, patch, if_pos outside] at passes
    cases passes
  have behind : ¬ (r.size.toNat = 0 ∨ r.offset.toNat + r.size.toNat ≤ o.code.length) := by
    rw [← Bool.not_eq_true, Patch.fits_eq_true_iff] at overruns
    exact overruns
  by_contra small
  rw [wrap64_eq_self (by omega) (by omega)] at inside
  omega

/-- A relocation that lies in the code can be written exactly when the label is near enough. -/
theorem writable_iff {o : Object} {r : Relocation} {l : Label}
    (addressable : Addressable o.code.length) (inCode : r.InCode o.code.length)
    (measured : IsOffset r.relativeTo) (labelled : IsOffset l.value) :
    o.Writable r l ↔ r.Reaches l := by
  have distance := Relocation.distance_eq measured labelled
  unfold IsOffset at measured labelled
  have size := inCode.size
  have bits : r.bits = 8 * r.size := by
    apply wrap64_eq_self <;> omega
  have holds : r.holds (r.distance l) = true ↔ r.Reaches l := by
    rw [distance, Relocation.holds, Int.pow_eq, Relocation.Reaches, bits, decide_eq_true_iff]
    rcases size with size | size | size | size <;>
      simp only [size, Int.reduceMul, Int.reduceToNat, Nat.reduceSub, Int.reducePow,
        Int.reduceLE, Int.reduceNeg, false_or, true_or, true_iff] <;>
      omega
  rw [← holds, Writable, Passes, patch_of_inCode addressable inCode]
  simp only [fits_patchTo inCode l, and_true]
  cases r.holds (r.distance l) <;> simp

def remainder (o : Object) (r : Relocation) : Option Relocation :=
  match o.target? r with
  | none => some { r with isExternal := true }
  | some l => if l.isPublic then some r else none

def patches (o : Object) : List Patch :=
  o.relocations.filterMap fun r => (o.target? r).map r.patchTo

def written (o : Object) : Object :=
  { o with
    code := o.patches.foldl Patch.apply o.code
    relocations := o.relocations.filterMap o.remainder }

def AllWritable (o : Object) : Prop :=
  ∀ r ∈ o.relocations, ∀ l, o.target? r = some l → o.Writable r l

theorem resolve_eq_ok_iff {o : Object} {undefined : Undefined} {r : Relocation}
    {resolution : Resolution} :
    o.resolve undefined r = .ok resolution ↔
      (o.target? r = none → undefined = .kept) ∧
      (∀ l, o.target? r = some l → o.Passes r l) ∧
      resolution = ⟨(o.target? r).map r.patchTo, o.remainder r⟩ := by
  unfold resolve remainder
  cases target : o.target? r with
  | none => cases undefined <;> simp [eq_comm]
  | some l =>
      simp only [bind_eq_ok_iff, pure_eq_ok_iff, patch_eq_ok_iff]
      constructor
      · rintro ⟨p, ⟨passes, rfl⟩, rfl⟩
        simpa using passes
      · rintro ⟨-, passes, rfl⟩
        exact ⟨r.patchTo l, ⟨passes l rfl, rfl⟩, rfl⟩

theorem forall₂_resolve_iff {o : Object} {undefined : Undefined} {relocations : List Relocation}
    {resolutions : List Resolution} :
    List.Forall₂ (fun r resolution => o.resolve undefined r = .ok resolution)
        relocations resolutions ↔
      (∀ r ∈ relocations, (o.target? r = none → undefined = .kept) ∧
        ∀ l, o.target? r = some l → o.Passes r l) ∧
      resolutions = relocations.map fun r => ⟨(o.target? r).map r.patchTo, o.remainder r⟩ := by
  induction relocations generalizing resolutions with
  | nil => simp
  | cons r rest inductionHypothesis =>
      simp only [List.forall₂_cons_left_iff, inductionHypothesis]
      simp only [resolve_eq_ok_iff, List.forall_mem_cons, List.map_cons]
      constructor
      · rintro ⟨_, _, ⟨defined, passes, rfl⟩, ⟨restResolved, rfl⟩, rfl⟩
        exact ⟨⟨⟨defined, passes⟩, restResolved⟩, rfl⟩
      · rintro ⟨⟨⟨defined, passes⟩, restResolved⟩, rfl⟩
        exact ⟨_, _, ⟨defined, passes, rfl⟩, ⟨restResolved, rfl⟩, rfl⟩

theorem mapM_resolve_eq_ok_iff {o : Object} {undefined : Undefined}
    {resolutions : List Resolution} :
    o.relocations.mapM (o.resolve undefined) = .ok resolutions ↔
      (∀ r ∈ o.relocations, (o.target? r = none → undefined = .kept) ∧
        ∀ l, o.target? r = some l → o.Passes r l) ∧
      resolutions = o.relocations.map fun r => ⟨(o.target? r).map r.patchTo, o.remainder r⟩ := by
  rw [mapM_eq_ok_iff, forall₂_resolve_iff]

theorem mem_patches_iff {o : Object} {p : Patch} :
    p ∈ o.patches ↔ ∃ r ∈ o.relocations, ∃ l, o.target? r = some l ∧ r.patchTo l = p := by
  simp only [patches, List.mem_filterMap, Option.map_eq_some_iff]

theorem forall_mem_patches_iff {o : Object} {property : Patch → Prop} :
    (∀ p ∈ o.patches, property p) ↔
      ∀ r ∈ o.relocations, ∀ l, o.target? r = some l → property (r.patchTo l) := by
  simp only [mem_patches_iff]
  constructor
  · intro holds r member l target
    exact holds _ ⟨r, member, l, target, rfl⟩
  · rintro holds _ ⟨r, member, l, target, rfl⟩
    exact holds r member l target

/-- Writing has been interrupted by a patch that runs over the end of the code, because the end of a
field is past every 64-bit number.  What was written up to then is still there. -/
structure Interrupted (o left : Object) : Prop where
  overflows : ∃ r ∈ o.relocations, 2 ^ 63 ≤ r.offset + r.size
  cut : ∃ before p after, o.patches = before ++ p :: after ∧
    (∀ q ∈ before, q.fits o.code.length) ∧ p.fits o.code.length = false ∧
    left = { o with code := (before ++ [p]).foldl Patch.apply o.code }

theorem Interrupted.overruns {o left : Object} (interrupted : o.Interrupted left) :
    ∃ p ∈ o.patches, p.fits o.code.length = false := by
  obtain ⟨before, p, after, patches, -, overruns, -⟩ := interrupted.cut
  exact ⟨p, by simp [patches], overruns⟩

theorem Interrupted.labels {o left : Object} (interrupted : o.Interrupted left) :
    left.labels = o.labels := by
  obtain ⟨before, p, after, -, -, -, rfl⟩ := interrupted.cut
  rfl

theorem Interrupted.length_code {o left : Object} (interrupted : o.Interrupted left) :
    left.code.length = o.code.length := by
  obtain ⟨before, p, after, -, -, -, rfl⟩ := interrupted.cut
  simp

/-- Locating is refused before anything is written, or writes everything, or is interrupted. -/
theorem locateOutcome_cases (undefined : Undefined) (o : Object) :
    (∃ e, o.relocations.mapM (o.resolve undefined) = .error e ∧
      o.locateOutcome undefined = ⟨.error e, o⟩) ∨
    ((∀ r ∈ o.relocations, (o.target? r = none → undefined = .kept) ∧
        ∀ l, o.target? r = some l → o.Writable r l) ∧
      o.locateOutcome undefined = ⟨.ok (), o.written⟩) ∨
    ∃ left, o.Interrupted left ∧ o.locateOutcome undefined = ⟨.error .malformed, left⟩ := by
  unfold locateOutcome
  cases looked : o.relocations.mapM (o.resolve undefined) with
  | error e => exact Or.inl ⟨e, rfl, rfl⟩
  | ok resolutions =>
      obtain ⟨passes, rfl⟩ := mapM_resolve_eq_ok_iff.mp looked
      have patches : (o.relocations.map fun r =>
          (⟨(o.target? r).map r.patchTo, o.remainder r⟩ : Resolution)).filterMap (·.patch) =
          o.patches := List.filterMap_map ..
      have remaining : (o.relocations.map fun r =>
          (⟨(o.target? r).map r.patchTo, o.remainder r⟩ : Resolution)).filterMap (·.remains) =
          o.relocations.filterMap o.remainder := List.filterMap_map ..
      simp only [patches, remaining]
      right
      cases applied : Patch.applyAll o.code o.patches with
      | ok code =>
          obtain ⟨fit, rfl⟩ := Patch.applyAll_eq_ok_iff.mp applied
          refine Or.inl ⟨fun r member => ⟨(passes r member).1, fun l target => ?_⟩, rfl⟩
          exact ⟨(passes r member).2 l target, forall_mem_patches_iff.mp fit r member l target⟩
      | error code =>
          have cut := Patch.applyAll_eq_error_iff.mp applied
          obtain ⟨before, p, after, split, fit, overruns, rfl⟩ := cut
          refine Or.inr ⟨_, ⟨?_, before, p, after, split, fit, overruns, rfl⟩, rfl⟩
          have isPatch : p ∈ o.patches := by simp [split]
          obtain ⟨r, member, l, target, rfl⟩ := mem_patches_iff.mp isPatch
          exact ⟨r, member, overflows_of_passes ((passes r member).2 l target) overruns⟩

theorem locateWith_eq_ok_iff {o located : Object} {undefined : Undefined} :
    o.locateWith undefined = .ok located ↔
      (∀ r ∈ o.relocations, (o.target? r = none → undefined = .kept) ∧
        ∀ l, o.target? r = some l → o.Writable r l) ∧
      located = o.written := by
  unfold locateWith
  rcases o.locateOutcome_cases undefined with ⟨e, refused, ended⟩ | ⟨writable, ended⟩ |
    ⟨left, interrupted, ended⟩
  · have failing : ¬ ∀ r ∈ o.relocations, (o.target? r = none → undefined = .kept) ∧
        ∀ l, o.target? r = some l → o.Writable r l := by
      intro writable
      have passes := mapM_resolve_eq_ok_iff.mpr ⟨fun r member =>
        ⟨(writable r member).1, fun l target => ((writable r member).2 l target).1⟩, rfl⟩
      rw [refused] at passes
      cases passes
    simp [ended, failing]
  · rw [ended, Except.ok.injEq]
    exact ⟨fun same => ⟨writable, same.symm⟩, fun ⟨_, same⟩ => same.symm⟩
  · have failing : ¬ ∀ r ∈ o.relocations, (o.target? r = none → undefined = .kept) ∧
        ∀ l, o.target? r = some l → o.Writable r l := by
      intro writable
      obtain ⟨p, member, overruns⟩ := interrupted.overruns
      obtain ⟨r, isRelocation, l, target, rfl⟩ := mem_patches_iff.mp member
      have fits := ((writable r isRelocation).2 l target).2
      rw [overruns] at fits
      cases fits
    simp [ended, failing]

theorem locateOutcome_eq_of_ok {o located : Object} {undefined : Undefined}
    (succeeded : o.locateWith undefined = .ok located) :
    o.locateOutcome undefined = ⟨.ok (), located⟩ := by
  unfold locateWith at succeeded
  split at succeeded
  · rename_i ended
    rw [ended, ← Except.ok.inj succeeded]
  · cases succeeded

theorem locateOutcome_result_eq (undefined : Undefined) (o : Object) :
    (o.locateOutcome undefined).result = (o.locateWith undefined).map fun _ => () := by
  unfold locateWith
  split <;> rename_i ended <;> rw [ended] <;> rfl

/-- A failure changes the object only if writing was interrupted. -/
theorem locateOutcome_of_error {o : Object} {undefined : Undefined} {e : LocateError}
    (failed : o.locateWith undefined = .error e) :
    (o.locateOutcome undefined).object = o ∨
      e = .malformed ∧ o.Interrupted (o.locateOutcome undefined).object := by
  have ended : (o.locateOutcome undefined).result = .error e := by
    rw [locateOutcome_result_eq, failed]
    rfl
  rcases o.locateOutcome_cases undefined with ⟨reason, -, outcome⟩ | ⟨-, outcome⟩ |
    ⟨left, interrupted, outcome⟩ <;> rw [outcome] at ended ⊢
  · exact Or.inl rfl
  · cases ended
  · cases ended
    exact Or.inr ⟨rfl, interrupted⟩

theorem locatePartially_eq_ok_iff {o located : Object} :
    o.locatePartially = .ok located ↔ o.AllWritable ∧ located = o.written := by
  rw [locatePartially, locateWith_eq_ok_iff]
  simp [AllWritable]

theorem locate_eq_ok_iff {o located : Object} :
    o.locate = .ok located ↔
      (∀ r ∈ o.relocations, o.target? r ≠ none) ∧ o.AllWritable ∧ located = o.written := by
  rw [locate, locateWith_eq_ok_iff]
  constructor
  · rintro ⟨resolved, rfl⟩
    exact ⟨fun r member missing => by simpa using (resolved r member).1 missing,
      fun r member => (resolved r member).2, rfl⟩
  · rintro ⟨defined, writable, rfl⟩
    exact ⟨fun r member => ⟨fun missing => absurd missing (defined r member),
      writable r member⟩, rfl⟩

@[simp]
theorem length_written_code (o : Object) : o.written.code.length = o.code.length :=
  Patch.length_foldl_apply o.patches o.code

@[simp]
theorem written_labels (o : Object) : o.written.labels = o.labels := rfl

theorem covered_patches_iff {o : Object}
    (inCode : ∀ r ∈ o.relocations, r.InCode o.code.length) {position : Nat} :
    Patch.Covered o.patches position ↔
      ∃ r ∈ o.relocations, o.target? r ≠ none ∧ r.Covers position := by
  constructor
  · rintro ⟨p, member, covers⟩
    obtain ⟨r, isRelocation, l, target, rfl⟩ := mem_patches_iff.mp member
    refine ⟨r, isRelocation, by simp [target], ?_⟩
    exact (Relocation.covers_patchTo_iff (inCode r isRelocation) l position).mp covers
  · rintro ⟨r, isRelocation, defined, covers⟩
    obtain ⟨l, target⟩ := Option.ne_none_iff_exists'.mp defined
    exact ⟨r.patchTo l, mem_patches_iff.mpr ⟨r, isRelocation, l, target, rfl⟩,
      (Relocation.covers_patchTo_iff (inCode r isRelocation) l position).mpr covers⟩

/-- Bytes outside the fields that have a target are not changed. -/
theorem getElem?_written_code {o : Object}
    (inCode : ∀ r ∈ o.relocations, r.InCode o.code.length) {position : Nat}
    (outside : ∀ r ∈ o.relocations, o.target? r ≠ none → ¬ r.Covers position) :
    o.written.code[position]? = o.code[position]? := by
  apply Patch.getElem?_foldl_apply_of_not_covered
  rw [covered_patches_iff inCode]
  rintro ⟨r, isRelocation, defined, covers⟩
  exact outside r isRelocation defined covers

theorem patches_within {o : Object} (inCode : ∀ r ∈ o.relocations, r.InCode o.code.length) :
    ∀ p ∈ o.patches, p.offset + p.bytes.length ≤ o.code.length := by
  intro p member
  obtain ⟨r, isRelocation, l, -, rfl⟩ := mem_patches_iff.mp member
  exact Relocation.patchTo_within (inCode r isRelocation) l

theorem not_interrupted {o left : Object} (inCode : ∀ r ∈ o.relocations, r.InCode o.code.length) :
    ¬ o.Interrupted left := by
  intro interrupted
  obtain ⟨p, member, overruns⟩ := interrupted.overruns
  obtain ⟨r, isRelocation, l, -, rfl⟩ := mem_patches_iff.mp member
  rw [fits_patchTo (inCode r isRelocation) l] at overruns
  cases overruns

/-- Where fields lie in the code, locating writes everything or nothing. -/
theorem locateOutcome_object_of_inCode {o : Object}
    (inCode : ∀ r ∈ o.relocations, r.InCode o.code.length) (undefined : Undefined) :
    (o.locateOutcome undefined).object = o ∨
      o.AllWritable ∧ (o.locateOutcome undefined).object = o.written := by
  rcases o.locateOutcome_cases undefined with ⟨e, -, ended⟩ | ⟨writable, ended⟩ |
    ⟨left, interrupted, -⟩
  · exact Or.inl (by rw [ended])
  · exact Or.inr ⟨fun r member => (writable r member).2, by rw [ended]⟩
  · exact absurd interrupted (not_interrupted inCode)

/-- Where fields lie in the code, locating fails because of a label only. -/
theorem consistent_of_locateWith {o : Object} (addressable : Addressable o.code.length)
    (inCode : ∀ r ∈ o.relocations, r.InCode o.code.length) {undefined : Undefined}
    {e : LocateError} (failed : o.locateWith undefined = .error e) :
    e.isInconsistency = false := by
  unfold locateWith at failed
  rcases o.locateOutcome_cases undefined with ⟨e, refused, ended⟩ | ⟨-, ended⟩ |
    ⟨left, interrupted, ended⟩
  · rw [ended] at failed
    cases failed
    obtain ⟨r, member, failed⟩ := mapM_eq_error refused
    unfold resolve at failed
    split at failed
    · cases undefined <;> cases failed
      rfl
    · simp only [bind_eq_error_iff, patch_of_inCode addressable (inCode r member)] at failed
      rcases failed with tooFar | ⟨patch, -, impossible⟩
      · split at tooFar <;> cases tooFar
        rfl
      · cases impossible
  · rw [ended] at failed
    cases failed
  · exact absurd interrupted (not_interrupted inCode)

@[simp]
theorem locateOutcome_labels (undefined : Undefined) (o : Object) :
    (o.locateOutcome undefined).object.labels = o.labels := by
  rcases o.locateOutcome_cases undefined with ⟨e, -, ended⟩ | ⟨-, ended⟩ |
    ⟨left, interrupted, ended⟩ <;> rw [ended]
  · rfl
  · exact interrupted.labels

@[simp]
theorem length_locateOutcome_code (undefined : Undefined) (o : Object) :
    (o.locateOutcome undefined).object.code.length = o.code.length := by
  rcases o.locateOutcome_cases undefined with ⟨e, -, ended⟩ | ⟨-, ended⟩ |
    ⟨left, interrupted, ended⟩ <;> rw [ended]
  · exact o.length_written_code
  · exact interrupted.length_code

theorem patches_disjoint {o : Object} (inCode : ∀ r ∈ o.relocations, r.InCode o.code.length)
    (disjoint : o.relocations.Pairwise Relocation.Disjoint) :
    o.patches.Pairwise Patch.Disjoint := by
  apply List.Pairwise.filterMap _ _ (List.Pairwise.and_mem.mp disjoint)
  rintro r s ⟨rMember, sMember, apart⟩ p pPatch q qPatch position covers
  obtain ⟨l, -, rfl⟩ := Option.map_eq_some_iff.mp pPatch
  obtain ⟨m, -, rfl⟩ := Option.map_eq_some_iff.mp qPatch
  rw [Relocation.covers_patchTo_iff (inCode r rMember)] at covers
  rw [Relocation.covers_patchTo_iff (inCode s sMember)]
  exact apart position covers

/-- Where fields have no byte in common, each of them holds the bytes for its target. -/
theorem heldBy_written_code {o : Object}
    (inCode : ∀ r ∈ o.relocations, r.InCode o.code.length)
    (disjoint : o.relocations.Pairwise Relocation.Disjoint) {r : Relocation} {l : Label}
    (member : r ∈ o.relocations) (target : o.target? r = some l) :
    (r.patchTo l).HeldBy o.written.code :=
  Patch.heldBy_foldl_apply (patches_disjoint inCode disjoint) (patches_within inCode) _
    (mem_patches_iff.mpr ⟨r, member, l, target, rfl⟩)

theorem field_written_code {o : Object}
    (inCode : ∀ r ∈ o.relocations, r.InCode o.code.length)
    (disjoint : o.relocations.Pairwise Relocation.Disjoint) {r : Relocation} {l : Label}
    (member : r ∈ o.relocations) (target : o.target? r = some l) :
    r.field o.written.code = (r.patchTo l).bytes := by
  rw [← Patch.field_eq_of_heldBy (heldBy_written_code inCode disjoint member target),
    Relocation.length_patchTo]
  rfl

/-- The field of a relocation holds the distance to its target. -/
theorem signed_field_written_code {o : Object}
    (inCode : ∀ r ∈ o.relocations, r.InCode o.code.length)
    (disjoint : o.relocations.Pairwise Relocation.Disjoint) {r : Relocation} {l : Label}
    (member : r ∈ o.relocations) (target : o.target? r = some l)
    (measured : IsOffset r.relativeTo) (labelled : IsOffset l.value) (reaches : r.Reaches l) :
    signedOfLittleEndian (r.field o.written.code) = l.value - r.relativeTo := by
  rw [field_written_code inCode disjoint member target, Relocation.bytes_patchTo,
    Relocation.distance_eq measured labelled]
  have size := (inCode r member).size
  exact signedOfLittleEndian_littleEndian (by omega) reaches.1 reaches.2

/-! ### Targets -/

theorem label?_eq_none_iff {o : Object} {name : Text} :
    o.label? name = none ↔ ∀ l ∈ o.labels, l.name ≠ name := by
  unfold label?
  split
  · rename_i l found
    have member := List.mem_of_find?_eq_some found
    have named := List.find?_some found
    simp only [Bool.decide_and, Bool.decide_eq_true, Bool.and_eq_true, decide_eq_true_eq] at named
    simp only [reduceCtorEq, false_iff, not_forall, not_not]
    exact ⟨l, member, named.1⟩
  · simp

theorem mem_of_label?_eq_some {o : Object} {name : Text} {l : Label}
    (found : o.label? name = some l) : l ∈ o.labels ∧ l.name = name := by
  unfold label? at found
  split at found
  · rename_i first foundPublic
    cases found
    have named := List.find?_some foundPublic
    simp only [Bool.decide_and, Bool.decide_eq_true, Bool.and_eq_true, decide_eq_true_eq] at named
    exact ⟨List.mem_of_find?_eq_some foundPublic, named.1⟩
  · exact ⟨List.mem_of_find?_eq_some found, by simpa using List.find?_some found⟩

theorem mem_of_target?_eq_some {o : Object} {r : Relocation} {l : Label}
    (target : o.target? r = some l) : l ∈ o.labels ∧ l.name = r.label := by
  unfold target? at target
  split at target
  · rename_i found
    split at target
    · cases target
    · cases target
      exact mem_of_label?_eq_some found
  · cases target

theorem label?_eq_some_iff {o : Object} (distinct : (o.labels.map (·.name)).Nodup) {name : Text}
    {l : Label} : o.label? name = some l ↔ l ∈ o.labels ∧ l.name = name := by
  constructor
  · exact mem_of_label?_eq_some
  · rintro ⟨member, named⟩
    cases found : o.label? name with
    | none => exact absurd named (label?_eq_none_iff.mp found l member)
    | some other =>
        obtain ⟨otherMember, otherNamed⟩ := mem_of_label?_eq_some found
        rw [List.inj_on_of_nodup_map distinct otherMember member (otherNamed.trans named.symm)]

theorem target?_of_not_external {o : Object} {r : Relocation} (internal : r.isExternal = false) :
    o.target? r = o.label? r.label := by
  unfold target?
  cases o.label? r.label <;> simp [internal]

end Object

end Asm64
