import Asm64.Proofs.Object.Obtainable

/-!
# Linking is associative

Linking three objects locates them six times in either grouping, at different moments.  All that
remains of it is the join of the three, which is associative, and one location of it.
-/

namespace Asm64

namespace Object

theorem clash?_join_left_eq_none_iff {a b c : Object} :
    (a.join b).clash? c = none ↔ a.clash? c = none ∧ b.clash? c = none := by
  simp only [clash?_eq_none_iff, publicNames_join, List.mem_append, not_or]
  exact forall₂_and

theorem clash?_join_right_eq_none_iff {a b c : Object} :
    a.clash? (b.join c) = none ↔ a.clash? b = none ∧ a.clash? c = none := by
  simp only [clash?_eq_none_iff, publicNames_join, List.mem_append, or_imp, forall_and]

section Groupings

variable {a b c : Object} (soundA : a.Sound) (soundB : b.Sound) (soundC : c.Sound)
  (addressable : Addressable ((a.join b).join c).code.length)

include soundA soundB soundC addressable

theorem link_link_left {o : Object} :
    ((a.link b).result >>= fun ab => (ab.link c).result) = .ok o ↔
      (a.clash? b = none ∧ a.clash? c = none ∧ b.clash? c = none) ∧
        ((a.join b).join c).AllWritable ∧ o = ((a.join b).join c).written := by
  have shorter := addressable.mono (length_le_length_join (a.join b) c).1
  have soundAB := soundA.join soundB shorter
  have located : Addressable ((a.join b).written.join c).code.length := by
    rwa [length_join_code, linkBase_written, ← length_join_code]
  have writable : ((a.join b).written.join c).AllWritable ↔ ((a.join b).join c).AllWritable := by
    apply allWritable_congr
    · simp only [length_join_code, linkBase_written]
    · simp only [join_labels, written_labels, linkBase_written]
    · simp only [join_relocations _ c, soundAB.written_relocations, linkBase_written]
  simp only [bind_eq_ok_iff, link_eq_ok_iff soundA soundB shorter]
  constructor
  · rintro ⟨_, ⟨noClashAB, -, rfl⟩, linked⟩
    obtain ⟨noClash, reached, rfl⟩ := (link_eq_ok_iff soundAB.written soundC located).mp linked
    obtain ⟨noClashAC, noClashBC⟩ := clash?_join_left_eq_none_iff.mp noClash
    exact ⟨⟨noClashAB, noClashAC, noClashBC⟩, writable.mp reached,
      written_join_written_left soundAB c⟩
  · rintro ⟨⟨noClashAB, noClashAC, noClashBC⟩, reached, rfl⟩
    refine ⟨_, ⟨noClashAB, AllWritable.of_join_left soundAB soundC addressable reached, rfl⟩, ?_⟩
    rw [link_eq_ok_iff soundAB.written soundC located]
    exact ⟨clash?_join_left_eq_none_iff.mpr ⟨noClashAC, noClashBC⟩, writable.mpr reached,
      (written_join_written_left soundAB c).symm⟩

theorem link_link_right {o : Object} :
    ((b.link c).result >>= fun bc => (a.link bc).result) = .ok o ↔
      (a.clash? b = none ∧ a.clash? c = none ∧ b.clash? c = none) ∧
        ((a.join b).join c).AllWritable ∧ o = ((a.join b).join c).written := by
  rw [join_assoc] at addressable ⊢
  have shorter := addressable.mono (length_le_length_join a (b.join c)).2
  have soundBC := soundB.join soundC shorter
  have located : Addressable (a.join (b.join c).written).code.length := by
    rwa [length_join_code, length_written_code, ← length_join_code]
  have writable : (a.join (b.join c).written).AllWritable ↔ (a.join (b.join c)).AllWritable := by
    apply allWritable_congr
    · simp only [length_join_code, length_written_code]
    · simp only [join_labels, written_labels]
    · simp only [join_relocations a, soundBC.written_relocations]
  simp only [bind_eq_ok_iff, link_eq_ok_iff soundB soundC shorter]
  constructor
  · rintro ⟨_, ⟨noClashBC, -, rfl⟩, linked⟩
    obtain ⟨noClash, reached, rfl⟩ := (link_eq_ok_iff soundA soundBC.written located).mp linked
    have joinedClash : a.clash? (b.join c) = none := noClash
    obtain ⟨noClashAB, noClashAC⟩ := clash?_join_right_eq_none_iff.mp joinedClash
    exact ⟨⟨noClashAB, noClashAC, noClashBC⟩, writable.mp reached,
      written_join_written_right soundBC joinedClash addressable⟩
  · rintro ⟨⟨noClashAB, noClashAC, noClashBC⟩, reached, rfl⟩
    have noClash := clash?_join_right_eq_none_iff.mpr ⟨noClashAB, noClashAC⟩
    refine ⟨_, ⟨noClashBC,
      AllWritable.of_join_right soundA soundBC addressable noClash reached, rfl⟩, ?_⟩
    rw [link_eq_ok_iff soundA soundBC.written located]
    exact ⟨noClash, writable.mpr reached,
      (written_join_written_right soundBC noClash addressable).symm⟩

end Groupings

end Object

/-- Three objects can be linked in either grouping or in neither, with the same result. -/
theorem Object.link_assoc {a b c : Object} (obtainableA : Obtainable a)
    (obtainableB : Obtainable b) (obtainableC : Obtainable c)
    (addressable : Addressable (a.linkBase + b.linkBase + c.code.length)) (o : Object) :
    ((a.link b).result >>= fun ab => (ab.link c).result) = .ok o ↔
      ((b.link c).result >>= fun bc => (a.link bc).result) = .ok o := by
  have baseA := a.length_le_linkBase
  have baseB := b.length_le_linkBase
  have soundA := obtainableA.sound (addressable.mono (by omega))
  have soundB := obtainableB.sound (addressable.mono (by omega))
  have soundC := obtainableC.sound (addressable.mono (by omega))
  have joined : Addressable ((a.join b).join c).code.length := by
    rwa [length_join_code, linkBase_join]
  rw [link_link_left soundA soundB soundC joined, link_link_right soundA soundB soundC joined]

theorem Object.link_assoc_sample :
    ∃ o, o.code.length = 42 ∧
      ((sampleFirst.link sampleSecond).result >>= fun ab => (ab.link sampleThird).result) =
        .ok o ∧
      ((sampleSecond.link sampleThird).result >>= fun bc => (sampleFirst.link bc).result) =
        .ok o := by
  have obtainableFirst : Obtainable sampleFirst :=
    obtainable_of_standard (ascii ".global f\nf: add eax, g[rip]") (by decide +kernel)
  have obtainableSecond : Obtainable sampleSecond :=
    obtainable_of_standard (ascii ".global g\ng: add eax, f[rip]") (by decide +kernel)
  have obtainableThird : Obtainable sampleThird :=
    obtainable_of_standard (ascii "add g[rip], f") (by decide +kernel)
  have evaluated : ((sampleFirst.link sampleSecond).result >>= fun ab =>
      (ab.link sampleThird).result).toOption.map (·.code.length) = some 42 := by decide +kernel
  rw [Option.map_eq_some_iff] at evaluated
  obtain ⟨o, linked, length⟩ := evaluated
  rw [toOption_eq_some_iff] at linked
  refine ⟨o, length, linked, ?_⟩
  exact (link_assoc obtainableFirst obtainableSecond obtainableThird
    (by unfold Addressable; decide) o).mp linked

end Asm64
