import Asm64.Proofs.Object.Merge

/-!
# The fields of located and of joined objects

Locating drops some relocations and moves none of their fields.  Joining moves the fields of the
second object behind the code of the first.  Fields that lie in the code still do afterwards, and
fields without a byte in common still have none.  An object with such fields, and with one public
label for each name, can be located without one field disturbing another.
-/

namespace Asm64

namespace Relocation

namespace SameField

variable {r s : Relocation} (same : r.SameField s)

include same

theorem inCode {length : Nat} (inCode : s.InCode length) : r.InCode length := by
  obtain ⟨-, offset, size, -⟩ := same
  refine ⟨?_, ?_, ?_⟩
  · rw [size]
    exact inCode.size
  · rw [offset]
    exact inCode.offset
  · rw [offset, size]
    exact inCode.field

theorem field_eq (code : List UInt8) : r.field code = s.field code := by
  obtain ⟨-, offset, size, -⟩ := same
  simp only [field, offset, size]

end SameField

theorem shift_relativeTo_of_lt {r : Relocation} {base : Nat} (nonnegative : 0 ≤ r.relativeTo)
    (bounded : r.relativeTo + base < 2 ^ 63) :
    (r.shift base).relativeTo = r.relativeTo + base := by
  apply wrap64_eq_self <;> omega

theorem covers_shift_iff {r : Relocation} {base length : Nat}
    (addressable : Addressable (base + length)) (inCode : r.InCode length) (position : Nat) :
    (r.shift base).Covers position ↔ base ≤ position ∧ r.Covers (position - base) := by
  have nonnegative := inCode.offset
  rw [Covers, shift_offset addressable inCode, Covers]
  simp only [shift]
  omega

theorem Disjoint.shift {r s : Relocation} {base length : Nat}
    (addressable : Addressable (base + length)) (inCodeR : r.InCode length)
    (inCodeS : s.InCode length) (disjoint : r.Disjoint s) :
    (r.shift base).Disjoint (s.shift base) := by
  intro position covers
  rw [covers_shift_iff addressable inCodeR] at covers
  rw [covers_shift_iff addressable inCodeS]
  exact fun other => disjoint _ covers.2 other.2

end Relocation

namespace Object

/-! ### Located objects -/

theorem mem_written_relocations {o : Object} {s : Relocation} :
    s ∈ o.written.relocations ↔ ∃ r ∈ o.relocations, o.remainder r = some s :=
  List.mem_filterMap

theorem inCode_written {o : Object} (inCode : ∀ r ∈ o.relocations, r.InCode o.code.length) :
    ∀ s ∈ o.written.relocations, s.InCode o.written.code.length := by
  intro s member
  obtain ⟨r, isRelocation, remains⟩ := mem_written_relocations.mp member
  rw [length_written_code]
  exact (sameField_of_remainder remains).inCode (inCode r isRelocation)

theorem disjoint_written {o : Object} (disjoint : o.relocations.Pairwise Relocation.Disjoint) :
    o.written.relocations.Pairwise Relocation.Disjoint := by
  apply List.Pairwise.filterMap _ _ disjoint
  intro r s apart t remainsT u remainsU position covers
  rw [(sameField_of_remainder remainsT).covers_iff] at covers
  rw [(sameField_of_remainder remainsU).covers_iff]
  exact apart position covers

theorem eq_of_covers {o : Object} (disjoint : o.relocations.Pairwise Relocation.Disjoint)
    {r s : Relocation} (memberR : r ∈ o.relocations) (memberS : s ∈ o.relocations)
    {position : Nat} (coversR : r.Covers position) (coversS : s.Covers position) : r = s := by
  by_contra different
  exact disjoint.forall memberR memberS different position coversR coversS

/-! ### Joined objects -/

section Join

variable {a b : Object} (inCodeA : ∀ r ∈ a.relocations, r.InCode a.code.length)
  (inCodeB : ∀ r ∈ b.relocations, r.InCode b.code.length)
  (addressable : Addressable (a.linkBase + b.code.length))

include inCodeA inCodeB addressable

theorem inCode_join : ∀ r ∈ (a.join b).relocations, r.InCode (a.join b).code.length := by
  intro r member
  rw [join_relocations, List.mem_append, List.mem_map] at member
  rw [length_join_code]
  rcases member with inA | ⟨s, inB, rfl⟩
  · obtain ⟨size, offset, field⟩ := inCodeA r inA
    have longer := a.length_le_linkBase
    exact ⟨size, offset, by push_cast; omega⟩
  · exact (inCodeB s inB).shift addressable

theorem disjoint_join (disjointA : a.relocations.Pairwise Relocation.Disjoint)
    (disjointB : b.relocations.Pairwise Relocation.Disjoint) :
    (a.join b).relocations.Pairwise Relocation.Disjoint := by
  rw [join_relocations, List.pairwise_append, List.pairwise_map]
  refine ⟨disjointA, ?_, ?_⟩
  · apply (List.Pairwise.and_mem.mp disjointB).imp
    rintro r s ⟨memberR, memberS, apart⟩
    exact apart.shift addressable (inCodeB r memberR) (inCodeB s memberS)
  · intro r inA s mapped
    obtain ⟨t, inB, rfl⟩ := List.mem_map.mp mapped
    have behind := Relocation.shift_offset addressable (inCodeB t inB)
    have nonnegative := (inCodeB t inB).offset
    have longer := a.length_le_linkBase
    have front := (inCodeA r inA).field
    apply Relocation.disjoint_of_ordered
    rw [behind]
    omega

end Join

theorem nodup_publicNames_join {a b : Object} (distinctA : a.publicNames.Nodup)
    (distinctB : b.publicNames.Nodup) (noClash : a.clash? b = none) :
    (a.join b).publicNames.Nodup := by
  rw [publicNames_join, List.nodup_append]
  refine ⟨distinctA, distinctB, ?_⟩
  rintro name inA other inB rfl
  exact clash?_eq_none_iff.mp noClash name inB inA

theorem publicLabel?_eq_some_iff {o : Object} (distinct : o.publicNames.Nodup) {name : Text}
    {l : Label} :
    o.publicLabel? name = some l ↔ l ∈ o.labels ∧ l.name = name ∧ l.isPublic = true := by
  constructor
  · exact publicLabel?_eq_some
  · rintro ⟨member, named, isPublic⟩
    cases found : o.publicLabel? name with
    | none =>
        exact absurd (mem_publicNames_iff.mpr ⟨l, member, isPublic, named⟩)
          (publicLabel?_eq_none_iff.mp found)
    | some other =>
        obtain ⟨otherMember, otherNamed, otherPublic⟩ := publicLabel?_eq_some found
        congr 1
        apply List.inj_on_of_nodup_map distinct
        · exact List.mem_filter.mpr ⟨otherMember, otherPublic⟩
        · exact List.mem_filter.mpr ⟨member, isPublic⟩
        · exact otherNamed.trans named.symm

theorem target?_of_publicLabel? {o : Object} {r : Relocation} {l : Label}
    (found : o.publicLabel? r.label = some l) : o.target? r = some l := by
  obtain ⟨-, -, isPublic⟩ := publicLabel?_eq_some found
  rw [target?, label?, ← publicLabel?, found]
  simp [isPublic]

/-! ### Well-formed objects -/

/-- Labels and fields lie in the code, fields have no byte in common, and public labels have
different names.  Distances may be measured from anywhere. -/
structure WellFormed (o : Object) : Prop where
  labels : ∀ l ∈ o.labels, l.InBounds o.code.length
  inCode : ∀ r ∈ o.relocations, r.InCode o.code.length
  measured : ∀ r ∈ o.relocations, IsOffset r.relativeTo
  disjoint : o.relocations.Pairwise Relocation.Disjoint
  distinct : o.publicNames.Nodup

namespace WellFormed

theorem written {o : Object} (wellFormed : o.WellFormed) : o.written.WellFormed where
  labels := by
    rw [length_written_code]
    exact wellFormed.labels
  inCode := inCode_written wellFormed.inCode
  measured := by
    intro s member
    obtain ⟨r, isRelocation, remains⟩ := mem_written_relocations.mp member
    rw [(sameField_of_remainder remains).2.2.2]
    exact wellFormed.measured r isRelocation
  disjoint := disjoint_written wellFormed.disjoint
  distinct := wellFormed.distinct

theorem join {a b : Object} (wellFormedA : a.WellFormed) (wellFormedB : b.WellFormed)
    (addressable : Addressable (a.linkBase + b.code.length))
    (measured : ∀ r ∈ b.relocations, r.relativeTo + a.linkBase < 2 ^ 63)
    (noClash : a.clash? b = none) : (a.join b).WellFormed where
  labels := by
    intro l member
    rw [length_join_code]
    rw [join_labels, List.mem_append, List.mem_map] at member
    rcases member with inA | ⟨l, inB, rfl⟩
    · exact (wellFormedA.labels l inA).mono (Nat.le_add_right_of_le a.length_le_linkBase)
    · exact (wellFormedB.labels l inB).shift addressable
  inCode := inCode_join wellFormedA.inCode wellFormedB.inCode addressable
  measured := by
    intro r member
    rw [join_relocations, List.mem_append, List.mem_map] at member
    rcases member with inA | ⟨s, inB, rfl⟩
    · exact wellFormedA.measured r inA
    · rw [Relocation.shift_relativeTo_of_lt (wellFormedB.measured s inB).1 (measured s inB)]
      have nonnegative := (wellFormedB.measured s inB).1
      exact ⟨by omega, measured s inB⟩
  disjoint := disjoint_join wellFormedA.inCode wellFormedB.inCode addressable
    wellFormedA.disjoint wellFormedB.disjoint
  distinct := nodup_publicNames_join wellFormedA.distinct wellFormedB.distinct noClash

/-- After locating, the field of a relocation holds the distance to its target. -/
theorem held_written {o : Object} (wellFormed : o.WellFormed)
    (addressable : Addressable o.code.length) (writable : o.AllWritable) {r : Relocation}
    (member : r ∈ o.relocations) {l : Label} (target : o.target? r = some l) :
    signedOfLittleEndian (r.field o.written.code) = l.value - r.relativeTo := by
  have measured := wellFormed.measured r member
  have labelled :=
    (wellFormed.labels l (mem_of_target?_eq_some target).1).isOffset addressable
  have reaches : r.Reaches l :=
    (writable_iff addressable (wellFormed.inCode r member) measured labelled).mp
      (writable r member l target)
  exact signed_field_written_code wellFormed.inCode wellFormed.disjoint member target measured
    labelled reaches

end WellFormed

end Object

end Asm64
