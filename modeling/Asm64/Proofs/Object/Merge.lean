import Asm64.Proofs.Object.Link

/-!
# Linking against merging

Two sources can become one object in two ways.  They can be assembled apart, which locates each of
the two objects, and then linked and located; or they can be merged before anything is located.
The first way writes fields up to four times, some of them not before the last, and the second
way writes each field once.  The code is the same in the end, if no relocation is left over.
-/

namespace Asm64

def Relocation.moved (base : Nat) (r : Relocation) : Relocation :=
  { r with offset := r.offset + base, relativeTo := r.relativeTo + base }

/-- The two relocations differ at most in where their labels may be. -/
def Relocation.SameField (r s : Relocation) : Prop :=
  r.label = s.label ∧ r.offset = s.offset ∧ r.size = s.size ∧ r.relativeTo = s.relativeTo

namespace Relocation.SameField

variable {r s : Relocation} (same : r.SameField s)

include same

theorem patchTo_eq (l : Label) : r.patchTo l = s.patchTo l := by
  obtain ⟨-, offset, size, relativeTo⟩ := same
  simp only [patchTo, distance, offset, size, relativeTo]

theorem reaches_iff (l : Label) : r.Reaches l ↔ s.Reaches l := by
  obtain ⟨-, -, size, relativeTo⟩ := same
  simp only [Reaches, size, relativeTo]

theorem covers_iff (position : Nat) : r.Covers position ↔ s.Covers position := by
  obtain ⟨-, offset, size, -⟩ := same
  simp only [Covers, offset, size]

end Relocation.SameField

theorem Relocation.sameField_shift {r : Relocation} {base length : Nat}
    (addressable : Addressable (base + length)) (bounds : r.InBounds length) :
    (r.shift base).SameField (r.moved base) :=
  ⟨rfl, shift_offset addressable bounds.inCode, rfl, shift_relativeTo addressable bounds⟩

namespace Object

theorem sameField_of_remainder {o : Object} {r s : Relocation}
    (remains : o.remainder r = some s) : s.SameField r := by
  obtain ⟨label, offset, size, relativeTo, -⟩ := settled_of_remainder remains
  exact ⟨label, offset, size, relativeTo⟩

/-- One object behind the other, as if both came from one source. -/
def merge (a b : Object) : Object :=
  { a.join b with
    relocations := a.relocations ++ b.relocations.map (Relocation.moved a.linkBase) }

/-- An object as the first pass leaves it: nothing is located, and no relocation is external. -/
structure Unlocated (o : Object) : Prop where
  labels : ∀ l ∈ o.labels, l.InBounds o.code.length
  relocations : ∀ r ∈ o.relocations, r.InBounds o.code.length
  internal : ∀ r ∈ o.relocations, r.isExternal = false

theorem Unlocated.inCode {o : Object} (unlocated : o.Unlocated) :
    ∀ r ∈ o.relocations, r.InCode o.code.length :=
  fun r member => (unlocated.relocations r member).inCode

section Merge

variable {a b : Object} (unlocatedA : a.Unlocated) (unlocatedB : b.Unlocated)
  (addressable : Addressable (a.merge b).code.length)
  (distinct : ((a.merge b).labels.map (·.name)).Nodup)

theorem length_merge_code : (a.merge b).code.length = a.linkBase + b.code.length :=
  length_join_code a b

theorem merge_labels : (a.merge b).labels = a.labels ++ b.labels.map (Label.shift a.linkBase) :=
  join_labels a b

theorem mem_merge_relocations {r : Relocation} :
    r ∈ (a.merge b).relocations ↔
      r ∈ a.relocations ∨ ∃ s ∈ b.relocations, s.moved a.linkBase = r := by
  simp only [merge, List.mem_append, List.mem_map]

include unlocatedA unlocatedB in
theorem isExternal_merge {r : Relocation} (member : r ∈ (a.merge b).relocations) :
    r.isExternal = false := by
  rcases mem_merge_relocations.mp member with inA | ⟨s, inB, rfl⟩
  · exact unlocatedA.internal r inA
  · exact unlocatedB.internal s inB

include unlocatedA unlocatedB addressable in
theorem unlocated_merge : (a.merge b).Unlocated where
  labels := by
    intro l member
    rw [merge_labels, List.mem_append, List.mem_map] at member
    rw [length_merge_code] at addressable ⊢
    rcases member with inA | ⟨l, inB, rfl⟩
    · exact (unlocatedA.labels l inA).mono (Nat.le_add_right_of_le a.length_le_linkBase)
    · exact (unlocatedB.labels l inB).shift addressable
  relocations := by
    intro r member
    rw [length_merge_code]
    rcases mem_merge_relocations.mp member with inA | ⟨s, inB, rfl⟩
    · exact (unlocatedA.relocations r inA).mono (Nat.le_add_right_of_le a.length_le_linkBase)
    · obtain ⟨size, offset, field, relativeTo⟩ := unlocatedB.relocations s inB
      refine ⟨size, ?_, ?_, ?_⟩ <;> simp only [Relocation.moved] <;> push_cast <;> omega
  internal := fun _ member => isExternal_merge unlocatedA unlocatedB member

include unlocatedA unlocatedB distinct in
theorem target?_merge {r : Relocation} (member : r ∈ (a.merge b).relocations) {l : Label} :
    (a.merge b).target? r = some l ↔ l ∈ (a.merge b).labels ∧ l.name = r.label := by
  rw [target?_of_not_external (isExternal_merge unlocatedA unlocatedB member)]
  exact label?_eq_some_iff distinct

include unlocatedA unlocatedB distinct in
theorem target?_merge_left {r : Relocation} {l : Label} (member : r ∈ a.relocations)
    (target : a.target? r = some l) : (a.merge b).target? r = some l := by
  obtain ⟨inLabels, named⟩ := mem_of_target?_eq_some target
  rw [target?_merge unlocatedA unlocatedB distinct (mem_merge_relocations.mpr (Or.inl member)),
    merge_labels]
  exact ⟨List.mem_append_left _ inLabels, named⟩

include unlocatedA unlocatedB distinct in
theorem target?_merge_right {r : Relocation} {l : Label} (member : r ∈ b.relocations)
    (target : b.target? r = some l) :
    (a.merge b).target? (r.moved a.linkBase) = some (l.shift a.linkBase) := by
  obtain ⟨inLabels, named⟩ := mem_of_target?_eq_some target
  rw [target?_merge unlocatedA unlocatedB distinct
    (mem_merge_relocations.mpr (Or.inr ⟨r, member, rfl⟩)), merge_labels]
  exact ⟨List.mem_append_right _ (List.mem_map_of_mem inLabels), named⟩

include distinct in
theorem clash?_eq_none_of_merge : a.clash? b = none := by
  rw [merge_labels, List.map_append, List.nodup_append] at distinct
  rw [clash?_eq_none_iff]
  intro name publicB publicA
  obtain ⟨l, inA, -, namedA⟩ := mem_publicNames_iff.mp publicA
  obtain ⟨m, inB, -, namedB⟩ := mem_publicNames_iff.mp publicB
  refine distinct.2.2 name ?_ name ?_ rfl
  · exact List.mem_map.mpr ⟨l, inA, namedA⟩
  · exact List.mem_map.mpr ⟨m.shift a.linkBase, List.mem_map_of_mem inB, namedB⟩

/-! ### The two objects located and joined -/

theorem length_join_written_code :
    (a.written.join b.written).code.length = (a.merge b).code.length := by
  rw [length_join_code, linkBase_written, length_written_code, length_merge_code]

theorem join_written_labels : (a.written.join b.written).labels = (a.merge b).labels := by
  rw [join_labels, written_labels, written_labels, linkBase_written, merge_labels]

theorem mem_join_written_relocations {s : Relocation} :
    s ∈ (a.written.join b.written).relocations ↔
      (∃ r ∈ a.relocations, a.remainder r = some s) ∨
        ∃ r ∈ b.relocations, ∃ t, b.remainder r = some t ∧ t.shift a.linkBase = s := by
  rw [join_relocations, linkBase_written, List.mem_append, List.mem_map, written, written]
  simp only [List.mem_filterMap]
  constructor
  · rintro (inA | ⟨t, ⟨r, inB, remains⟩, rfl⟩)
    · exact Or.inl inA
    · exact Or.inr ⟨r, inB, t, remains, rfl⟩
  · rintro (inA | ⟨r, inB, t, remains, rfl⟩)
    · exact Or.inl inA
    · exact Or.inr ⟨t, ⟨r, inB, remains⟩, rfl⟩

include unlocatedA unlocatedB addressable in
theorem sound_join_written : (a.written.join b.written).Sound := by
  apply (sound_written unlocatedA.labels unlocatedA.relocations).join
    (sound_written unlocatedB.labels unlocatedB.relocations)
  rwa [length_join_written_code]

theorem sameField_shift_of_remainder {length : Nat} {r t : Relocation}
    (remains : b.remainder r = some t) (bounds : r.InBounds length)
    (shifted : Addressable (a.linkBase + length)) :
    (t.shift a.linkBase).SameField (r.moved a.linkBase) := by
  obtain ⟨label, offset, size, relativeTo⟩ := sameField_of_remainder remains
  have moved := Relocation.sameField_shift shifted bounds
  simp only [Relocation.SameField, Relocation.shift, label, offset, size, relativeTo] at moved ⊢
  exact moved

include unlocatedB addressable in
theorem exists_sameField {s : Relocation}
    (member : s ∈ (a.written.join b.written).relocations) :
    ∃ r ∈ (a.merge b).relocations, s.SameField r := by
  rw [length_merge_code] at addressable
  rcases mem_join_written_relocations.mp member with ⟨r, inA, remains⟩ | ⟨r, inB, t, remains, rfl⟩
  · exact ⟨r, mem_merge_relocations.mpr (Or.inl inA), sameField_of_remainder remains⟩
  · exact ⟨r.moved a.linkBase, mem_merge_relocations.mpr (Or.inr ⟨r, inB, rfl⟩),
      sameField_shift_of_remainder remains (unlocatedB.relocations r inB) addressable⟩

include unlocatedA unlocatedB distinct in
theorem target?_merge_of_sameField {r s : Relocation} {l : Label}
    (member : r ∈ (a.merge b).relocations) (same : s.SameField r)
    (target : (a.written.join b.written).target? s = some l) :
    (a.merge b).target? r = some l := by
  obtain ⟨inLabels, named⟩ := mem_of_target?_eq_some target
  rw [join_written_labels] at inLabels
  rw [target?_merge unlocatedA unlocatedB distinct member]
  exact ⟨inLabels, named.trans same.1⟩

include unlocatedA unlocatedB addressable distinct in
theorem allWritable_join_written (writable : (a.merge b).AllWritable) :
    (a.written.join b.written).AllWritable := by
  have sound := sound_join_written unlocatedA unlocatedB addressable
  have unlocated := unlocated_merge unlocatedA unlocatedB addressable
  intro s member l target
  obtain ⟨r, merged, same⟩ := exists_sameField unlocatedB addressable member
  have mergedTarget := target?_merge_of_sameField unlocatedA unlocatedB distinct merged same target
  have labelBounds := unlocated.labels l (mem_of_target?_eq_some mergedTarget).1
  have reaches : r.Reaches l :=
    (writable_iff addressable (unlocated.relocations r merged).inCode
      ((unlocated.relocations r merged).isOffset addressable)
      (labelBounds.isOffset addressable)).mp (writable r merged l mergedTarget)
  rw [sound.writable_iff (by rwa [length_join_written_code]) member target, same.reaches_iff]
  exact reaches

/-! ### The code in the end -/

/-- The patches that are applied before linking. -/
def patchesApart (a b : Object) : List Patch :=
  a.patches ++ b.patches.map (Patch.shift a.linkBase)

include unlocatedA in
theorem join_written_code :
    (a.written.join b.written).code = (patchesApart a b).foldl Patch.apply (a.merge b).code := by
  have padding : paddingFor linkAlignment a.written.code.length =
      paddingFor linkAlignment a.code.length := by rw [length_written_code]
  have front : (a.written.pad linkAlignment).code.length = a.linkBase := by
    rw [length_pad_code, linkBase_written]
  have code : (a.merge b).code = a.code ++
      (List.replicate (paddingFor linkAlignment a.code.length) 0 ++ b.code) := join_code a b
  rw [patchesApart, List.foldl_append, code,
    Patch.foldl_apply_append_left (patches_within unlocatedA.inCode), ← List.append_assoc]
  change _ = (b.patches.map (Patch.shift a.linkBase)).foldl Patch.apply
    (a.written.code ++ List.replicate (paddingFor linkAlignment a.code.length) 0 ++ b.code)
  rw [← padding, ← front]
  exact (Patch.foldl_apply_append_right b.patches (a.written.pad linkAlignment).code b.code).symm

include unlocatedA unlocatedB addressable distinct in
/-- Whatever is written on the way is also what the merged object holds in the end. -/
theorem heldBy_merge_written (disjoint : (a.merge b).relocations.Pairwise Relocation.Disjoint) :
    ∀ p ∈ patchesApart a b ++ (a.written.join b.written).patches,
      p.HeldBy (a.merge b).written.code := by
  have unlocated := unlocated_merge unlocatedA unlocatedB addressable
  have held {r : Relocation} {l : Label} := heldBy_written_code unlocated.inCode disjoint
    (r := r) (l := l)
  intro p member
  simp only [patchesApart, List.mem_append, List.mem_map] at member
  rcases member with (inA | ⟨q, inB, rfl⟩) | later
  · obtain ⟨r, isRelocation, l, target, rfl⟩ := mem_patches_iff.mp inA
    exact held (mem_merge_relocations.mpr (Or.inl isRelocation))
      (target?_merge_left unlocatedA unlocatedB distinct isRelocation target)
  · obtain ⟨r, isRelocation, l, target, rfl⟩ := mem_patches_iff.mp inB
    have bounds := unlocatedB.relocations r isRelocation
    have labelBounds := unlocatedB.labels l (mem_of_target?_eq_some target).1
    rw [length_merge_code] at addressable
    rw [← Relocation.patchTo_shift addressable bounds labelBounds,
      (Relocation.sameField_shift addressable bounds).patchTo_eq]
    exact held (mem_merge_relocations.mpr (Or.inr ⟨r, isRelocation, rfl⟩))
      (target?_merge_right unlocatedA unlocatedB distinct isRelocation target)
  · obtain ⟨s, isRelocation, l, target, rfl⟩ := mem_patches_iff.mp later
    obtain ⟨r, merged, same⟩ := exists_sameField unlocatedB addressable isRelocation
    rw [same.patchTo_eq]
    exact held merged (target?_merge_of_sameField unlocatedA unlocatedB distinct merged same target)

include unlocatedA unlocatedB addressable in
/-- Every field of the merged object has been written, before linking or after it. -/
theorem covered_of_merge
    (defined : ∀ s ∈ (a.written.join b.written).relocations,
      (a.written.join b.written).target? s ≠ none)
    {r : Relocation} (member : r ∈ (a.merge b).relocations) {position : Nat}
    (covers : r.Covers position) :
    Patch.Covered (patchesApart a b ++ (a.written.join b.written).patches) position := by
  have sound := sound_join_written unlocatedA unlocatedB addressable
  -- A relocation that is left to linking has a target there, and with it a patch.
  have later {s : Relocation} (left : s ∈ (a.written.join b.written).relocations)
      (same : s.SameField r) :
      Patch.Covered (patchesApart a b ++ (a.written.join b.written).patches) position := by
    obtain ⟨p, inPatches, covers⟩ := (covered_patches_iff sound.inCode).mpr
      ⟨s, left, defined s left, (same.covers_iff position).mpr covers⟩
    exact ⟨p, List.mem_append_right _ inPatches, covers⟩
  rcases mem_merge_relocations.mp member with inA | ⟨r, inB, rfl⟩
  · cases target : a.target? r with
    | none =>
        have remains : a.remainder r = some { r with isExternal := true } := by
          rw [remainder, target]
        exact later (mem_join_written_relocations.mpr (Or.inl ⟨r, inA, remains⟩))
          (sameField_of_remainder remains)
    | some l =>
        refine ⟨r.patchTo l, ?_,
          (Relocation.covers_patchTo_iff (unlocatedA.inCode r inA) l position).mpr covers⟩
        exact List.mem_append_left _ (List.mem_append_left _
          (mem_patches_iff.mpr ⟨r, inA, l, target, rfl⟩))
  · have bounds := unlocatedB.relocations r inB
    rw [length_merge_code] at addressable
    cases target : b.target? r with
    | none =>
        have remains : b.remainder r = some { r with isExternal := true } := by
          rw [remainder, target]
        exact later (mem_join_written_relocations.mpr (Or.inr ⟨r, inB, _, remains, rfl⟩))
          (sameField_shift_of_remainder remains bounds addressable)
    | some l =>
        have labelBounds := unlocatedB.labels l (mem_of_target?_eq_some target).1
        have same := Relocation.sameField_shift addressable bounds
        refine ⟨(r.patchTo l).shift a.linkBase, ?_, ?_⟩
        · exact List.mem_append_left _ (List.mem_append_right _
            (List.mem_map_of_mem (mem_patches_iff.mpr ⟨r, inB, l, target, rfl⟩)))
        · rw [← Relocation.patchTo_shift addressable bounds labelBounds,
            Relocation.covers_patchTo_iff (bounds.shift addressable).inCode, same.covers_iff]
          exact covers

include unlocatedA unlocatedB addressable distinct in
/-- Linking two objects that have been located, and locating the result, gives the code of the
merged object. -/
theorem locate_join_written {located : Object}
    (disjoint : (a.merge b).relocations.Pairwise Relocation.Disjoint)
    (finished : (a.written.join b.written).written.locate = .ok located) :
    located.code = (a.merge b).written.code ∧ located.labels = (a.merge b).written.labels := by
  have sound := sound_join_written unlocatedA unlocatedB addressable
  have unlocated := unlocated_merge unlocatedA unlocatedB addressable
  obtain ⟨defined, -, rfl⟩ := locate_eq_ok_iff.mp finished
  rw [sound.written_relocations] at defined
  rw [sound.written_written]
  refine ⟨?_, join_written_labels⟩
  change (a.written.join b.written).patches.foldl Patch.apply _ = _
  rw [join_written_code unlocatedA, ← List.foldl_append]
  apply Patch.foldl_apply_eq_target
  · exact (length_written_code _).symm
  · exact heldBy_merge_written unlocatedA unlocatedB addressable distinct disjoint
  · intro position
    by_cases covered : ∃ r ∈ (a.merge b).relocations, r.Covers position
    · obtain ⟨r, member, covers⟩ := covered
      exact Or.inl (covered_of_merge unlocatedA unlocatedB addressable defined member covers)
    · right
      symm
      apply getElem?_written_code unlocated.inCode
      intro r member _ covers
      exact covered ⟨r, member, covers⟩

end Merge

end Object

end Asm64
