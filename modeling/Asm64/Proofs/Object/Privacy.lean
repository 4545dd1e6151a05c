import Asm64.Proofs.Object.Resolution

/-!
# Private labels stay private

Other objects can see the code, the relocations and the public labels of an object.  Its private
labels matter only while its own relocations are located.  Where each relocation is external or
has a public label, erasing the private labels and locating can be done in either order; locating
brings every object into that form, so whatever is linked afterwards does not see them.
-/

namespace Asm64

namespace Object

def erasePrivate (o : Object) : Object := { o with labels := o.labels.filter (·.isPublic) }

@[simp]
theorem publicNames_erasePrivate (o : Object) : o.erasePrivate.publicNames = o.publicNames := by
  simp only [publicNames, erasePrivate, List.filter_filter, Bool.and_self]

@[simp]
theorem publicLabel?_erasePrivate (o : Object) (name : Text) :
    o.erasePrivate.publicLabel? name = o.publicLabel? name := by
  rw [publicLabel?, erasePrivate, List.find?_filter, publicLabel?]
  congr 1
  funext l
  cases l.isPublic <;> simp

theorem settled_erasePrivate_iff {o : Object} {r : Relocation} :
    o.erasePrivate.Settled r ↔ o.Settled r := by
  rw [Settled, Settled, publicNames_erasePrivate]

theorem target?_erasePrivate {o : Object} {r : Relocation} (settled : o.Settled r) :
    o.erasePrivate.target? r = o.target? r := by
  rw [target?_of_settled (settled_erasePrivate_iff.mpr settled), publicLabel?_erasePrivate,
    target?_of_settled settled]

theorem resolve_erasePrivate {o : Object} {r : Relocation} (settled : o.Settled r)
    (undefined : Undefined) : o.erasePrivate.resolve undefined r = o.resolve undefined r := by
  unfold resolve
  rw [target?_erasePrivate settled]
  rfl

/-- Locating does not need private labels where every relocation is settled. -/
theorem locatePartially_erasePrivate {o : Object} (settled : ∀ r ∈ o.relocations, o.Settled r) :
    o.erasePrivate.locatePartially = o.locatePartially.map erasePrivate := by
  have same : o.erasePrivate.relocations.mapM (o.erasePrivate.resolve .kept) =
      o.relocations.mapM (o.resolve .kept) := by
    apply mapM_congr
    intro r member
    exact resolve_erasePrivate (settled r member) .kept
  have code : o.erasePrivate.code = o.code := rfl
  simp only [locatePartially, locateWith, locateOutcome, same, code]
  cases o.relocations.mapM (o.resolve .kept) with
  | error e => rfl
  | ok resolutions =>
      dsimp only
      cases Patch.applyAll o.code (resolutions.filterMap (·.patch)) <;> rfl

/-! ### Linking -/

theorem clash?_erasePrivate (a b : Object) :
    a.erasePrivate.clash? b.erasePrivate = a.clash? b := by
  rw [clash?, clash?, publicNames_erasePrivate, publicNames_erasePrivate]

theorem erasePrivate_join (a b : Object) :
    (a.join b).erasePrivate = a.erasePrivate.join b.erasePrivate := by
  apply eq_of_parts
  · rfl
  · rw [join_labels, erasePrivate, join_labels, List.filter_append, List.filter_map]
    rfl
  · rw [join_relocations, erasePrivate, join_relocations]
    rfl

theorem linkLocated_erasePrivate {a b : Object} (settled : ∀ r ∈ a.relocations, a.Settled r) :
    a.erasePrivate.linkLocated b.erasePrivate = (a.linkLocated b).map erasePrivate := by
  have joined : ∀ r ∈ (a.join b).relocations, (a.join b).Settled r := by
    intro r member
    rw [join_relocations, List.mem_append, List.mem_map] at member
    rcases member with inA | ⟨s, -, rfl⟩
    · exact (settled r inA).join_left b
    · exact Or.inl rfl
  have located := locatePartially_erasePrivate joined
  rw [erasePrivate_join] at located
  unfold join at located
  rw [linkLocated, linkLocated, clash?_erasePrivate, located]
  cases a.clash? b with
  | some name => rfl
  | none => cases ((a.pad linkAlignment).append b).locatePartially <;> rfl

theorem settled_of_locatePartially {o located : Object}
    (succeeded : o.locatePartially = .ok located) :
    ∀ r ∈ located.relocations, located.Settled r := by
  obtain ⟨-, rfl⟩ := locatePartially_eq_ok_iff.mp succeeded
  exact settled_written

/-- All that other objects see of an object: what is left of it when its own relocations have been
located and its private labels are gone. -/
def exported (o : Object) : Except LinkError Object :=
  (o.locatePartially.map erasePrivate).mapError .locate

/-- The result of linking, but for its private labels, depends on what the two objects export and
on nothing else. -/
theorem erasePrivate_link (a b : Object) :
    (a.link b).result.map erasePrivate =
      a.exported >>= fun first => b.exported >>= fun second => first.linkLocated second := by
  unfold link exported
  cases locatedA : a.locatePartially with
  | error failure => rfl
  | ok first =>
      cases locatedB : b.locatePartially with
      | error failure => rfl
      | ok second => exact (linkLocated_erasePrivate (settled_of_locatePartially locatedA)).symm

theorem exported_eq {o : Object} (settled : ∀ r ∈ o.relocations, o.Settled r) :
    o.exported = o.erasePrivate.locatePartially.mapError .locate := by
  rw [exported, locatePartially_erasePrivate settled]

/-- Two objects that differ in their private labels only link alike with every object, on either
side of it: both links fail for the same reason, or both give the same code, relocations and public
labels. -/
theorem link_ignores_private_labels {a b : Object} (code : a.code = b.code)
    (relocations : a.relocations = b.relocations)
    (labels : a.labels.filter (·.isPublic) = b.labels.filter (·.isPublic))
    (settled : ∀ r ∈ a.relocations, r.isExternal = true ∨
      ∃ l ∈ a.labels, l.isPublic = true ∧ l.name = r.label) (other : Object) :
    (a.link other).result.map (fun o => (o.code, o.relocations, o.labels.filter (·.isPublic))) =
      (b.link other).result.map (fun o => (o.code, o.relocations, o.labels.filter (·.isPublic))) ∧
    (other.link a).result.map (fun o => (o.code, o.relocations, o.labels.filter (·.isPublic))) =
      (other.link b).result.map
        (fun o => (o.code, o.relocations, o.labels.filter (·.isPublic))) := by
  have erased : a.erasePrivate = b.erasePrivate := eq_of_parts code labels relocations
  have settledA : ∀ r ∈ a.relocations, a.Settled r := fun r member =>
    (settled r member).imp_right mem_publicNames_iff.mpr
  have settledB : ∀ r ∈ b.relocations, b.Settled r := by
    intro r member
    rw [← settled_erasePrivate_iff, ← erased, settled_erasePrivate_iff]
    exact settledA r (relocations ▸ member)
  have same : a.exported = b.exported := by
    rw [exported_eq settledA, exported_eq settledB, erased]
  -- What is compared can be read off the results without their private labels.
  have seen (linked : Except LinkError Object) :
      linked.map (fun o => (o.code, o.relocations, o.labels.filter (·.isPublic))) =
        (linked.map erasePrivate).map (fun o => (o.code, o.relocations, o.labels)) := by
    cases linked <;> rfl
  simp only [seen, erasePrivate_link, same, and_self]

/-! Two objects that differ in their private labels only.  The second one has a private label with
the name of the label that both are waiting for, and one with the name of a private label of
`sampleCallee`. -/

def sampleOpen : Object :=
  ⟨[232, 0, 0, 0, 0], [⟨ascii "start", 0, true⟩], [⟨ascii "print", 1, 4, 5, true⟩]⟩

def sampleCluttered : Object :=
  { sampleOpen with
    labels := [⟨ascii "print", 3, false⟩, ⟨ascii "start", 0, true⟩, ⟨ascii "local", 5, false⟩] }

/-- Both calls reach the public label. -/
theorem link_ignores_private_labels_sample :
    ∃ o p, (sampleOpen.link sampleCallee).result = .ok o ∧
      (sampleCluttered.link sampleCallee).result = .ok p ∧ o.labels.length ≠ p.labels.length ∧
      o.code.take 5 = [232, 11, 0, 0, 0] ∧ o.code = p.code ∧ o.relocations = p.relocations := by
  have evaluated : (sampleOpen.link sampleCallee).result.toOption.map
      (fun o => (o.labels.length, o.code.take 5)) = some (3, [232, 11, 0, 0, 0]) := by
    decide +kernel
  have cluttered : (sampleCluttered.link sampleCallee).result.toOption.map (·.labels.length) =
      some 5 := by decide +kernel
  simp only [Option.map_eq_some_iff, toOption_eq_some_iff, Prod.mk.injEq] at evaluated cluttered
  obtain ⟨o, linked, length, call⟩ := evaluated
  obtain ⟨p, linkedCluttered, lengthCluttered⟩ := cluttered
  have labels : sampleOpen.labels.filter (·.isPublic) =
      sampleCluttered.labels.filter (·.isPublic) := by simp [sampleOpen, sampleCluttered]
  have same := (link_ignores_private_labels (a := sampleOpen) (b := sampleCluttered) rfl rfl
    labels (by decide) sampleCallee).1
  rw [linked, linkedCluttered] at same
  simp only [Except.map, Except.ok.injEq, Prod.mk.injEq] at same
  exact ⟨o, p, linked, linkedCluttered, by omega, call, same.1, same.2.1⟩

end Object

end Asm64
