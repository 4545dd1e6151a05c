import Asm64.Proofs.Assembler.FirstPass
import Asm64.Proofs.Object.Coherence
import Asm64.Proofs.ObjectFile.RoundTrip

/-!
# Objects that can be obtained

Objects come from sources, and from other objects by locating, linking, and going through a
file.  All of them are coherent, as long as 64-bit numbers can hold the offsets into their code.
-/

namespace Asm64

inductive Obtainable : Object → Prop where
  | assembled {a : Assembler} {source : Text} {assembly : Assembler.Assembly} :
      a.customDirectives = [] → a.assemble source = .ok assembly → Obtainable assembly.object
  | located {o located : Object} :
      Obtainable o → o.locate = .ok located → Obtainable located
  | linked {a b o : Object} :
      Obtainable a → Obtainable b → (a.link b).result = .ok o → Obtainable o
  /-- Linking locates the second object, also where it fails. -/
  | linkedTo {a b : Object} : Obtainable a → Obtainable b → Obtainable (a.link b).other
  | reloaded {o read : Object} {file : List UInt8} :
      Obtainable o → ObjectFile.encode o = .ok file → ObjectFile.decode file = .ok read →
      Obtainable read

namespace Object

theorem coherent_of_assemble {a : Assembler} (builtinOnly : a.customDirectives = [])
    {source : Text} {assembly : Assembler.Assembly} (assembled : a.assemble source = .ok assembly)
    (addressable : Addressable assembly.object.code.length) : assembly.object.Coherent := by
  obtain ⟨layout, laidOut, distinct, -, writable, object⟩ :=
    Assembler.assembleStatements_eq_ok builtinOnly assembled
  obtain ⟨consecutive, -⟩ := Layout.ofStatements?_eq_some_iff.mp laidOut
  rw [object, length_written_code] at addressable
  rw [object]
  -- Names of labels are different, so the names of those that are public are different too.
  have distinctPublic : layout.object.publicNames.Nodup :=
    distinct.sublist (List.filter_sublist.map _)
  exact coherent_written consecutive.object_labels_inBounds consecutive.object_inBounds
    (consecutive.references_ordered.imp Relocation.disjoint_of_ordered) distinctPublic addressable
    writable

theorem Sound.written {o : Object} (sound : o.Sound) : o.written.Sound :=
  sound_written sound.labels sound.relocations

theorem link_other_eq (a b : Object) :
    (a.link b).other = b ∨ (a.link b).other = (b.locateOutcome .kept).object := by
  unfold link
  split
  · exact Or.inl rfl
  · split
    · exact Or.inr rfl
    · rename_i located
      exact Or.inr (by rw [locateOutcome_eq_of_ok located])

theorem link_other_labels (a b : Object) : (a.link b).other.labels = b.labels := by
  rcases link_other_eq a b with same | located
  · rw [same]
  · rw [located, locateOutcome_labels]

theorem length_link_other (a b : Object) : (a.link b).other.code.length = b.code.length := by
  rcases link_other_eq a b with same | located
  · rw [same]
  · rw [located, length_locateOutcome_code]

theorem length_of_link {a b o : Object} (linked : (a.link b).result = .ok o) :
    o.code.length = (a.join b).code.length := by
  obtain ⟨-, -, -, -, rfl⟩ := link_eq_ok_iff_stages.mp linked
  simp only [length_written_code, length_join_code, linkBase_written]

end Object

/-- Each way to obtain an object gives a coherent one from coherent ones. -/
theorem Obtainable.coherent {o : Object} (obtainable : Obtainable o)
    (addressable : Addressable o.code.length) : o.Coherent := by
  induction obtainable with
  | assembled builtinOnly assembled =>
      exact Object.coherent_of_assemble builtinOnly assembled addressable
  | located _ located inductionHypothesis =>
      obtain ⟨-, writable, rfl⟩ := Object.locate_eq_ok_iff.mp located
      rw [Object.length_written_code] at addressable
      exact (inductionHypothesis addressable).written addressable writable
  | @linked a b o _ _ linked coherentA coherentB =>
      rw [Object.length_of_link linked] at addressable
      obtain ⟨shorterA, shorterB⟩ := a.length_le_length_join b
      exact (coherentA (addressable.mono shorterA)).linked (coherentB (addressable.mono shorterB))
        addressable linked
  | @linkedTo a b _ _ _ coherentB =>
      rw [Object.length_link_other] at addressable
      have coherent := coherentB addressable
      rcases Object.link_other_eq a b with same | located
      · rwa [same]
      · rw [located]
        rcases Object.locateOutcome_object_of_inCode coherent.inCode .kept with whole |
          ⟨writable, whole⟩
        · rwa [whole]
        · rw [whole]
          exact coherent.written addressable writable
  | @reloaded o read file _ encoded decoded inductionHypothesis =>
      have short := (ObjectFile.written_of_encode encoded).code
      have coherent := inductionHypothesis (Nat.lt_trans short (by decide))
      obtain ⟨-, rfl⟩ := (ObjectFile.decode_eq_ok_iff_of_encode encoded
        fun r member => (coherent.inCode r member).field).mp decoded
      exact coherent

theorem Obtainable.sound {o : Object} (obtainable : Obtainable o)
    (addressable : Addressable o.code.length) : o.Sound :=
  (obtainable.coherent addressable).toSound

/-- Labels and fields lie in the code, fields have no byte in common, and public labels have
different names.  A relocation that is left is external or names a public label, and where it
names one its field holds the distance to it. -/
theorem Obtainable.labels_and_fields {o : Object} (obtainable : Obtainable o)
    (addressable : Addressable o.code.length) :
    (∀ l ∈ o.labels, 0 ≤ l.value ∧ l.value ≤ o.code.length) ∧
    (∀ r ∈ o.relocations, (r.size = 1 ∨ r.size = 2 ∨ r.size = 4 ∨ r.size = 8) ∧ 0 ≤ r.offset ∧
      r.offset + r.size ≤ r.relativeTo ∧ r.relativeTo ≤ o.code.length) ∧
    o.relocations.Pairwise Relocation.Disjoint ∧
    ((o.labels.filter (·.isPublic)).map (·.name)).Nodup ∧
    (∀ r ∈ o.relocations, r.isExternal = true ∨
      ∃ l ∈ o.labels, l.isPublic = true ∧ l.name = r.label) ∧
    (∀ r ∈ o.relocations, ∀ l ∈ o.labels, l.isPublic = true → l.name = r.label →
      signedOfLittleEndian (r.field o.code) = l.value - r.relativeTo) := by
  have coherent := obtainable.coherent addressable
  refine ⟨?_, ?_, coherent.disjoint, coherent.distinct, ?_, coherent.held⟩
  · intro l member
    obtain ⟨nonnegative, bounded⟩ := coherent.labels l member
    exact ⟨nonnegative, bounded⟩
  · intro r member
    obtain ⟨size, offset, field, relativeTo⟩ := coherent.relocations r member
    exact ⟨size, offset, field, relativeTo⟩
  · intro r member
    exact (coherent.settled r member).imp_right Object.mem_publicNames_iff.mp

/-! Three objects that refer to the labels of each other in both directions. -/

def sampleFirst : Object :=
  ⟨[3, 5, 0, 0, 0, 0], [⟨ascii "f", 0, true⟩], [⟨ascii "g", 2, 4, 6, true⟩]⟩

def sampleSecond : Object :=
  ⟨[3, 5, 0, 0, 0, 0], [⟨ascii "g", 0, true⟩], [⟨ascii "f", 2, 4, 6, true⟩]⟩

def sampleThird : Object :=
  ⟨[129, 5, 0, 0, 0, 0, 0, 0, 0, 0], [], [⟨ascii "g", 2, 4, 10, true⟩, ⟨ascii "f", 6, 4, 10, true⟩]⟩

theorem obtainable_of_standard (source : Text) {o : Object}
    (assembled : (Assembler.standard.assemble source).toOption.map (·.object) = some o) :
    Obtainable o := by
  simp only [Option.map_eq_some_iff, toOption_eq_some_iff] at assembled
  obtain ⟨assembly, assembled, rfl⟩ := assembled
  exact .assembled rfl assembled

/-- Linked, the first two have both of their references open and written. -/
theorem Obtainable.labels_and_fields_sample :
    ∃ o, (sampleFirst.link sampleSecond).result = .ok o ∧ o.relocations.length = 2 ∧
      o.relocations.Pairwise Relocation.Disjoint ∧
      ∀ r ∈ o.relocations, ∀ l ∈ o.labels, l.isPublic = true → l.name = r.label →
        signedOfLittleEndian (r.field o.code) = l.value - r.relativeTo := by
  have obtainableFirst : Obtainable sampleFirst :=
    obtainable_of_standard (ascii ".global f\nf: add eax, g[rip]") (by decide +kernel)
  have obtainableSecond : Obtainable sampleSecond :=
    obtainable_of_standard (ascii ".global g\ng: add eax, f[rip]") (by decide +kernel)
  have evaluated : (sampleFirst.link sampleSecond).result.toOption.map
      (fun o => (o.code.length, o.relocations.length)) = some (22, 2) := by decide +kernel
  simp only [Option.map_eq_some_iff, toOption_eq_some_iff, Prod.mk.injEq] at evaluated
  obtain ⟨o, linked, length, relocations⟩ := evaluated
  obtain ⟨-, -, disjoint, -, -, held⟩ :=
    Obtainable.labels_and_fields (.linked obtainableFirst obtainableSecond linked)
      (by rw [length]; unfold Addressable; decide)
  exact ⟨o, linked, relocations, disjoint, held⟩

end Asm64
