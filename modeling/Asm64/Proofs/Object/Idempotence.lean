import Asm64.Proofs.Object.Resolution

/-!
# Locating twice

What locating does to an object whose fields have no byte in common, and that doing it again
changes nothing.  A relocation that remains has the target it had before, so it is written with the
bytes that its field holds already.
-/

namespace Asm64

namespace Object

/-! ### Which label a relocation refers to -/

def privateLabel? (o : Object) (name : Text) : Option Label :=
  o.labels.find? fun l => l.name = name ∧ !l.isPublic

/-- The label that a relocation refers to: the first public one of its name, or else the first
private one, if the relocation is not external. -/
def referent? (o : Object) (r : Relocation) : Option Label :=
  (o.publicLabel? r.label).or (if r.isExternal then none else o.privateLabel? r.label)

theorem target?_eq_referent? (o : Object) (r : Relocation) : o.target? r = o.referent? r := by
  cases found : o.publicLabel? r.label with
  | some l =>
      rw [target?_of_publicLabel? found, referent?, found, Option.some_or]
  | none =>
      have absent := publicLabel?_eq_none_iff.mp found
      rw [referent?, found, Option.none_or]
      cases external : r.isExternal with
      | true => rw [target?_of_settled (Or.inl external), found, if_pos rfl]
      | false =>
          -- Without a public label of the name, the first label of the name is private.
          have isPrivate : ∀ l ∈ o.labels, l.name = r.label → l.isPublic = false := by
            intro l member named
            by_contra isPublic
            exact absent (mem_publicNames_iff.mpr ⟨l, member, by simpa using isPublic, named⟩)
          rw [target?_of_not_external external, label?, ← publicLabel?, found, if_neg (by simp),
            privateLabel?]
          apply List.find?_congr
          intro l member
          by_cases named : l.name = r.label
          · simp [named, isPrivate l member named]
          · simp [named]

theorem target?_external {o : Object} {r : Relocation} (missing : o.target? r = none) :
    o.target? { r with isExternal := true } = none := by
  rw [target?_eq_referent?, referent?, Option.or_eq_none_iff] at missing ⊢
  exact ⟨missing.1, if_pos rfl⟩

theorem target?_of_remainder {o : Object} {r s : Relocation} (remains : o.remainder r = some s) :
    o.target? s = o.target? r := by
  unfold remainder at remains
  split at remains
  · rename_i missing
    cases remains
    rw [missing, target?_external missing]
  · split at remains <;> cases remains
    rfl

theorem mem_of_mem_written {o : Object} {s : Relocation} {l : Label}
    (member : s ∈ o.written.relocations) (target : o.target? s = some l) : s ∈ o.relocations := by
  obtain ⟨r, isRelocation, remains⟩ := mem_written_relocations.mp member
  have before := (target?_of_remainder remains).symm.trans target
  rw [remainder, before] at remains
  cases isPublic : l.isPublic with
  | false => simp [isPublic] at remains
  | true =>
      have same : r = s := by simpa [isPublic] using remains
      exact same ▸ isRelocation

/-! ### Locating again -/

/-- An object does not change if each of its fields is as it has to be. -/
theorem written_eq_self {o : Object} (settled : ∀ r ∈ o.relocations, o.Settled r)
    (held : ∀ p ∈ o.patches, p.HeldBy o.code) : o.written = o :=
  eq_of_parts (Patch.foldl_apply_eq_self held) rfl (written_relocations_of_settled settled)

section Written

variable {o : Object} (inCode : ∀ r ∈ o.relocations, r.InCode o.code.length)
  (disjoint : o.relocations.Pairwise Relocation.Disjoint)

include inCode disjoint in
theorem written_written : o.written.written = o.written := by
  apply written_eq_self settled_written
  intro p member
  obtain ⟨s, remaining, l, target, rfl⟩ := mem_patches_iff.mp member
  exact heldBy_written_code inCode disjoint (mem_of_mem_written remaining target) target

theorem allWritable_written (writable : o.AllWritable) : o.written.AllWritable := by
  intro s member l target
  obtain ⟨passes, fits⟩ := writable s (mem_of_mem_written member target) l target
  rw [Passes, patch] at passes
  rw [Writable, Passes, patch, length_written_code]
  exact ⟨passes, fits⟩

include inCode disjoint

theorem locatePartially_of_locatePartially {located : Object}
    (succeeded : o.locatePartially = .ok located) : located.locatePartially = .ok located := by
  obtain ⟨writable, rfl⟩ := locatePartially_eq_ok_iff.mp succeeded
  exact locatePartially_eq_ok_iff.mpr
    ⟨allWritable_written writable, (written_written inCode disjoint).symm⟩

theorem locate_of_locate {located : Object} (succeeded : o.locate = .ok located) :
    located.locate = .ok located := by
  obtain ⟨defined, writable, rfl⟩ := locate_eq_ok_iff.mp succeeded
  refine locate_eq_ok_iff.mpr
    ⟨?_, allWritable_written writable, (written_written inCode disjoint).symm⟩
  intro s member
  obtain ⟨r, isRelocation, remains⟩ := mem_written_relocations.mp member
  have same : o.written.target? s = o.target? r := target?_of_remainder remains
  rw [same]
  exact defined r isRelocation

end Written

/-! ### What locating does -/

/-- What locating makes of the code and the labels of an object. -/
structure Resolves (o located : Object) : Prop where
  /-- The field of a reference holds the distance to its label. -/
  held : ∀ r ∈ o.relocations, ∀ l, o.referent? r = some l →
    signedOfLittleEndian (r.field located.code) = l.value - r.relativeTo
  /-- The field of a reference to nothing is as it was. -/
  waiting : ∀ r ∈ o.relocations, o.referent? r = none → r.field located.code = r.field o.code
  unchanged : ∀ position, (∀ r ∈ o.relocations, ¬ r.Covers position) →
    located.code[position]? = o.code[position]?
  length : located.code.length = o.code.length
  labels : located.labels = o.labels

section Resolves

variable {o : Object} (inCode : ∀ r ∈ o.relocations, r.InCode o.code.length)
  (disjoint : o.relocations.Pairwise Relocation.Disjoint)
  (measured : ∀ r ∈ o.relocations, IsOffset r.relativeTo)
  (labelled : ∀ l ∈ o.labels, IsOffset l.value) (addressable : Addressable o.code.length)

include inCode measured labelled addressable in
theorem allWritable_iff :
    o.AllWritable ↔ ∀ r ∈ o.relocations, ∀ l, o.referent? r = some l → r.Reaches l := by
  simp only [AllWritable, ← target?_eq_referent?]
  refine forall₂_congr fun r member => forall₂_congr fun l target => ?_
  exact writable_iff addressable (inCode r member) (measured r member)
    (labelled l (mem_of_target?_eq_some target).1)

include inCode disjoint in
theorem field_written_code_of_open {r : Relocation} (member : r ∈ o.relocations)
    (missing : o.target? r = none) : r.field o.written.code = r.field o.code := by
  have agree : ∀ position, r.Covers position →
      o.written.code[0 + position]? = o.code[position]? := by
    intro position covers
    rw [Nat.zero_add]
    apply getElem?_written_code inCode
    intro other isRelocation defined coversOther
    rw [eq_of_covers disjoint isRelocation member coversOther covers] at defined
    exact defined missing
  have same := Relocation.field_moved_eq (inCode r member).offset agree
  rwa [Relocation.moved_zero] at same

include inCode disjoint measured labelled addressable in
theorem resolves_written (writable : o.AllWritable) : o.Resolves o.written where
  held := by
    intro r member l target
    have reaches := (allWritable_iff inCode measured labelled addressable).mp writable r member l
      target
    rw [← target?_eq_referent?] at target
    exact signed_field_written_code inCode disjoint member target (measured r member)
      (labelled l (mem_of_target?_eq_some target).1) reaches
  waiting := by
    intro r member missing
    rw [← target?_eq_referent?] at missing
    exact field_written_code_of_open inCode disjoint member missing
  unchanged position outside := getElem?_written_code inCode fun r member _ => outside r member
  length := length_written_code o
  labels := rfl

end Resolves

/-- Where each relocation has a target, those to public labels remain. -/
theorem written_relocations_of_defined {o : Object}
    (defined : ∀ r ∈ o.relocations, o.target? r ≠ none) :
    o.written.relocations = o.relocations.filter fun r => (o.referent? r).any (·.isPublic) := by
  rw [written, ← List.filterMap_eq_filter]
  apply List.filterMap_congr
  intro r member
  obtain ⟨l, target⟩ := Option.ne_none_iff_exists'.mp (defined r member)
  rw [remainder, target, Option.guard, ← target?_eq_referent?, target]
  rfl

/-- Locating succeeds exactly if each relocation refers to a label in its range.  The fields then
hold the distances and nothing else has changed, the relocations to public labels are left, and
locating again changes nothing.  Locating as far as possible does the same, but leaves the
relocations without a label too, as external ones. -/
theorem locating_resolves_and_settles {o : Object}
    (inCode : ∀ r ∈ o.relocations, r.InCode o.code.length)
    (disjoint : o.relocations.Pairwise Relocation.Disjoint)
    (measured : ∀ r ∈ o.relocations, IsOffset r.relativeTo)
    (labelled : ∀ l ∈ o.labels, IsOffset l.value) (addressable : Addressable o.code.length) :
    ((∃ located, o.locate = .ok located) ↔
      ∀ r ∈ o.relocations, ∃ l, o.referent? r = some l ∧ r.Reaches l) ∧
    (∀ located, o.locate = .ok located →
      o.Resolves located ∧
      located.relocations = (o.relocations.filter fun r => (o.referent? r).any (·.isPublic)) ∧
      located.locate = .ok located) ∧
    ((∃ located, o.locatePartially = .ok located) ↔
      ∀ r ∈ o.relocations, ∀ l, o.referent? r = some l → r.Reaches l) ∧
    ∀ located, o.locatePartially = .ok located →
      o.Resolves located ∧
      located.relocations = (o.relocations.filterMap fun r =>
        match o.referent? r with
        | none => some { r with isExternal := true }
        | some l => if l.isPublic then some r else none) ∧
      located.locatePartially = .ok located := by
  have reaching := allWritable_iff inCode measured labelled addressable
  refine ⟨?_, ?_, ?_, ?_⟩
  · simp only [locate_eq_ok_iff, reaching, target?_eq_referent?]
    constructor
    · rintro ⟨-, defined, reached, -⟩ r member
      obtain ⟨l, target⟩ := Option.ne_none_iff_exists'.mp (defined r member)
      exact ⟨l, target, reached r member l target⟩
    · intro resolved
      refine ⟨o.written, ?_, ?_, rfl⟩
      · intro r member missing
        obtain ⟨l, target, -⟩ := resolved r member
        rw [missing] at target
        cases target
      · intro r member l target
        obtain ⟨m, same, reached⟩ := resolved r member
        rw [target, Option.some.injEq] at same
        exact same ▸ reached
  · intro located succeeded
    refine ⟨?_, ?_, locate_of_locate inCode disjoint succeeded⟩
    · obtain ⟨-, writable, rfl⟩ := locate_eq_ok_iff.mp succeeded
      exact resolves_written inCode disjoint measured labelled addressable writable
    · obtain ⟨defined, -, rfl⟩ := locate_eq_ok_iff.mp succeeded
      exact written_relocations_of_defined defined
  · simp only [locatePartially_eq_ok_iff, exists_and_left, exists_eq, and_true, reaching]
  · intro located succeeded
    refine ⟨?_, ?_, locatePartially_of_locatePartially inCode disjoint succeeded⟩
    · obtain ⟨writable, rfl⟩ := locatePartially_eq_ok_iff.mp succeeded
      exact resolves_written inCode disjoint measured labelled addressable writable
    · obtain ⟨-, rfl⟩ := locatePartially_eq_ok_iff.mp succeeded
      apply List.filterMap_congr
      intro r _
      cases referent : o.referent? r <;> simp only [remainder, target?_eq_referent?, referent]

/-- A short jump to a name that a private and a public label have, and a call backwards. -/
def sampleOverlaid : Object :=
  ⟨[235, 0, 232, 0, 0, 0, 0, 195],
    [⟨ascii "f", 0, false⟩, ⟨ascii "f", 7, true⟩, ⟨ascii "g", 2, false⟩],
    [⟨ascii "f", 1, 1, 2, false⟩, ⟨ascii "g", 3, 4, 7, false⟩]⟩

/-- The jump leads to the public label and remains.  In the second object two references wait. -/
theorem locating_resolves_and_settles_sample :
    (∃ located, sampleOverlaid.locate = .ok located ∧
      located.code = [235, 5, 232, 251, 255, 255, 255, 195] ∧ sampleOverlaid.Resolves located ∧
      located.relocations = [⟨ascii "f", 1, 1, 2, false⟩] ∧ located.locate = .ok located) ∧
    ∃ located, sampleCaller.locatePartially = .ok located ∧ sampleCaller.Resolves located ∧
      located.relocations.length = 2 ∧ located.locatePartially = .ok located := by
  have evaluated : (sampleOverlaid.locate).toOption.map (·.code) =
      some [235, 5, 232, 251, 255, 255, 255, 195] := by decide +kernel
  have evaluatedCaller : (sampleCaller.locatePartially).toOption.map (·.relocations.length) =
      some 2 := by decide +kernel
  simp only [Option.map_eq_some_iff, toOption_eq_some_iff] at evaluated evaluatedCaller
  obtain ⟨located, succeeded, code⟩ := evaluated
  obtain ⟨locatedCaller, succeededCaller, waiting⟩ := evaluatedCaller
  have fields : ∀ r ∈ sampleOverlaid.relocations, r.InCode sampleOverlaid.code.length := by
    simp only [sampleOverlaid, List.forall_mem_cons]
    exact ⟨⟨by decide, by decide, by decide⟩, ⟨by decide, by decide, by decide⟩, by simp⟩
  have fieldsCaller : ∀ r ∈ sampleCaller.relocations, r.InCode sampleCaller.code.length := by
    simp only [sampleCaller, List.forall_mem_cons]
    exact ⟨⟨by decide, by decide, by decide⟩, ⟨by decide, by decide, by decide⟩,
      ⟨by decide, by decide, by decide⟩, by simp⟩
  obtain ⟨resolves, remaining, again⟩ := (locating_resolves_and_settles fields
    (List.Pairwise.imp Relocation.disjoint_of_ordered (by decide)) (by unfold IsOffset; decide)
    (by unfold IsOffset; decide) (by unfold Addressable; decide)).2.1 located succeeded
  obtain ⟨resolvesCaller, -, againCaller⟩ := (locating_resolves_and_settles fieldsCaller
    (List.Pairwise.imp Relocation.disjoint_of_ordered (by decide)) (by unfold IsOffset; decide)
    (by unfold IsOffset; decide) (by unfold Addressable; decide)).2.2.2 locatedCaller
      succeededCaller
  refine ⟨⟨located, succeeded, code, resolves, ?_, again⟩,
    locatedCaller, succeededCaller, resolvesCaller, waiting, againCaller⟩
  rw [remaining]
  decide

end Object

end Asm64
