import Asm64.Proofs.Object.Fields

/-!
# Coherent objects

The fields of a coherent object have no byte in common, its public labels have different names,
and each relocation that names one of them has been written already.  Locating is what makes an
object coherent; joining needs a location afterwards, because it brings public labels together
with relocations that have waited for them.
-/

namespace Asm64

namespace Object

structure Coherent (o : Object) : Prop extends o.Sound where
  disjoint : o.relocations.Pairwise Relocation.Disjoint
  distinct : o.publicNames.Nodup
  /-- A relocation that stays open to a public label holds the distance to it. -/
  held : ∀ r ∈ o.relocations, ∀ l ∈ o.labels, l.isPublic = true → l.name = r.label →
    signedOfLittleEndian (r.field o.code) = l.value - r.relativeTo

section Written

variable {o : Object} (labels : ∀ l ∈ o.labels, l.InBounds o.code.length)
  (relocations : ∀ r ∈ o.relocations, r.InBounds o.code.length)
  (disjoint : o.relocations.Pairwise Relocation.Disjoint) (distinct : o.publicNames.Nodup)
  (addressable : Addressable o.code.length)

include labels relocations disjoint distinct addressable

theorem wellFormed_of_inBounds : o.WellFormed where
  labels := labels
  inCode := fun r member => (relocations r member).inCode
  measured := fun r member => (relocations r member).isOffset addressable
  disjoint := disjoint
  distinct := distinct

theorem coherent_written (writable : o.AllWritable) : o.written.Coherent where
  toSound := sound_written labels relocations
  disjoint := disjoint_written disjoint
  distinct := distinct
  held := by
    have wellFormed := wellFormed_of_inBounds labels relocations disjoint distinct addressable
    intro s member l defined isPublic named
    obtain ⟨r, isRelocation, remains⟩ := mem_written_relocations.mp member
    have same := sameField_of_remainder remains
    have target : o.target? r = some l :=
      target?_of_publicLabel? ((publicLabel?_eq_some_iff distinct).mpr
        ⟨defined, named.trans same.1, isPublic⟩)
    rw [same.field_eq, same.2.2.2]
    exact wellFormed.held_written addressable writable isRelocation target

end Written

namespace Coherent

theorem written {o : Object} (coherent : o.Coherent) (addressable : Addressable o.code.length)
    (writable : o.AllWritable) : o.written.Coherent :=
  coherent_written coherent.labels coherent.relocations coherent.disjoint coherent.distinct
    addressable writable

theorem linked {a b o : Object} (coherentA : a.Coherent) (coherentB : b.Coherent)
    (addressable : Addressable (a.join b).code.length) (linked : (a.link b).result = .ok o) :
    o.Coherent := by
  obtain ⟨noClash, writable, rfl⟩ :=
    (link_eq_ok_iff coherentA.toSound coherentB.toSound addressable).mp linked
  have sound := coherentA.toSound.join coherentB.toSound addressable
  have shifted : Addressable (a.linkBase + b.code.length) := length_join_code a b ▸ addressable
  have disjoint := disjoint_join coherentA.inCode coherentB.inCode shifted coherentA.disjoint
    coherentB.disjoint
  have distinct := nodup_publicNames_join coherentA.distinct coherentB.distinct noClash
  exact coherent_written sound.labels sound.relocations disjoint distinct addressable writable

end Coherent

end Object

end Asm64
