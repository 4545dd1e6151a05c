import Asm64.Object.Link
import Asm64.Proofs.Object.Locate

/-!
# What linking does

Linking locates three times: each of the two objects, and the two of them joined.  The first two
times leave no trace, because whatever they write is written again at the end.  So linking is
joining followed by locating, and it fails only if names clash or a label is too far away.

This needs that a relocation finds the same label whatever is linked to its object.  That is
so if each relocation is external or has a public label: private labels no longer matter then.
-/

namespace Asm64

theorem shift_eq {value : Int} {base length : Nat} (addressable : Addressable length)
    (nonnegative : 0 ≤ value) (bounded : value + base ≤ length) :
    wrap64 (value + base) = value + base := by
  unfold Addressable at addressable
  apply wrap64_eq_self <;> omega

theorem Label.InBounds.mono {l : Label} {length longer : Nat} (bounds : l.InBounds length)
    (extended : length ≤ longer) : l.InBounds longer :=
  ⟨bounds.nonnegative, by have := bounds.bounded; omega⟩

theorem Relocation.InBounds.mono {r : Relocation} {length longer : Nat}
    (bounds : r.InBounds length) (extended : length ≤ longer) : r.InBounds longer :=
  ⟨bounds.size, bounds.offset, bounds.field, by have := bounds.relativeTo; omega⟩

/-! ### Moving labels and relocations behind other code -/

section Shift

variable {base length : Nat} (addressable : Addressable (base + length))

include addressable

theorem Label.shift_value {l : Label} (bounds : l.InBounds length) :
    (l.shift base).value = l.value + base := by
  have bounded := bounds.bounded
  exact shift_eq addressable bounds.nonnegative (by push_cast; omega)

theorem Label.InBounds.shift {l : Label} (bounds : l.InBounds length) :
    (l.shift base).InBounds (base + length) := by
  have nonnegative := bounds.nonnegative
  have bounded := bounds.bounded
  constructor <;> rw [Label.shift_value addressable bounds]
  · omega
  · push_cast
    omega

theorem Relocation.shift_offset {r : Relocation} (inCode : r.InCode length) :
    (r.shift base).offset = r.offset + base := by
  obtain ⟨size, offset, field⟩ := inCode
  exact shift_eq addressable offset (by push_cast; omega)

theorem Relocation.shift_relativeTo {r : Relocation} (bounds : r.InBounds length) :
    (r.shift base).relativeTo = r.relativeTo + base := by
  obtain ⟨size, offset, field, relativeTo⟩ := bounds
  exact shift_eq addressable (by omega) (by push_cast; omega)

theorem Relocation.InCode.shift {r : Relocation} (inCode : r.InCode length) :
    (r.shift base).InCode (base + length) := by
  have shiftedOffset := Relocation.shift_offset addressable inCode
  obtain ⟨size, offset, field⟩ := inCode
  refine ⟨size, ?_, ?_⟩
  · rw [shiftedOffset]
    omega
  · rw [shiftedOffset]
    simp only [Relocation.shift]
    push_cast
    omega

theorem Relocation.InBounds.shift {r : Relocation} (bounds : r.InBounds length) :
    (r.shift base).InBounds (base + length) := by
  have shiftedOffset := Relocation.shift_offset addressable bounds.inCode
  have shiftedRelativeTo := Relocation.shift_relativeTo addressable bounds
  obtain ⟨size, offset, field, relativeTo⟩ := bounds
  refine ⟨size, ?_, ?_, ?_⟩
  · rw [shiftedOffset]
    omega
  · rw [shiftedOffset, shiftedRelativeTo]
    simp only [Relocation.shift]
    omega
  · rw [shiftedRelativeTo]
    push_cast
    omega

theorem Relocation.distance_shift {r : Relocation} {l : Label} (bounds : r.InBounds length)
    (labelBounds : l.InBounds length) : (r.shift base).distance (l.shift base) = r.distance l := by
  rw [Relocation.distance, Relocation.distance, Label.shift_value addressable labelBounds,
    Relocation.shift_relativeTo addressable bounds]
  congr 1
  omega

theorem Relocation.reaches_shift_iff {r : Relocation} {l : Label} (bounds : r.InBounds length)
    (labelBounds : l.InBounds length) : (r.shift base).Reaches (l.shift base) ↔ r.Reaches l := by
  rw [Relocation.Reaches, Relocation.Reaches, Label.shift_value addressable labelBounds,
    Relocation.shift_relativeTo addressable bounds]
  simp only [Relocation.shift]
  rw [show l.value + (base : Int) - (r.relativeTo + base) = l.value - r.relativeTo by omega]

theorem Relocation.patchTo_shift {r : Relocation} {l : Label} (bounds : r.InBounds length)
    (labelBounds : l.InBounds length) :
    (r.shift base).patchTo (l.shift base) = (r.patchTo l).shift base := by
  have offset := bounds.offset
  rw [Relocation.patchTo, Relocation.distance_shift addressable bounds labelBounds,
    Relocation.shift_offset addressable bounds.inCode, Relocation.patchTo, Patch.shift,
    show (r.offset + (base : Int)).toNat = base + r.offset.toNat by omega]
  rfl

end Shift

namespace Object

/-! ### Public labels -/

def publicLabel? (o : Object) (name : Text) : Option Label :=
  o.labels.find? fun l => l.name = name ∧ l.isPublic

theorem mem_publicNames_iff {o : Object} {name : Text} :
    name ∈ o.publicNames ↔ ∃ l ∈ o.labels, l.isPublic = true ∧ l.name = name := by
  simp [publicNames, and_assoc]

theorem publicLabel?_eq_none_iff {o : Object} {name : Text} :
    o.publicLabel? name = none ↔ name ∉ o.publicNames := by
  rw [publicLabel?, List.find?_eq_none, mem_publicNames_iff]
  constructor
  · rintro absent ⟨l, member, isPublic, named⟩
    exact absent l member (by simp [isPublic, named])
  · intro absent l member found
    simp only [Bool.decide_and, Bool.decide_eq_true, Bool.and_eq_true, decide_eq_true_eq] at found
    exact absent ⟨l, member, found.2, found.1⟩

theorem publicLabel?_eq_some {o : Object} {name : Text} {l : Label}
    (found : o.publicLabel? name = some l) :
    l ∈ o.labels ∧ l.name = name ∧ l.isPublic = true := by
  have satisfied := List.find?_some found
  simp only [Bool.decide_and, Bool.decide_eq_true, Bool.and_eq_true, decide_eq_true_eq]
    at satisfied
  exact ⟨List.mem_of_find?_eq_some found, satisfied⟩

/-- The relocation can only have a public label as its target. -/
def Settled (o : Object) (r : Relocation) : Prop :=
  r.isExternal = true ∨ r.label ∈ o.publicNames

theorem target?_of_settled {o : Object} {r : Relocation} (settled : o.Settled r) :
    o.target? r = o.publicLabel? r.label := by
  rw [target?, label?, ← publicLabel?]
  cases found : o.publicLabel? r.label with
  | some l =>
      obtain ⟨-, -, isPublic⟩ := publicLabel?_eq_some found
      simp [isPublic]
  | none =>
      rw [publicLabel?_eq_none_iff] at found
      have isExternal : r.isExternal = true := settled.resolve_right found
      cases first : o.labels.find? fun l => l.name = r.label with
      | none => rfl
      | some l =>
          have isPrivate : l.isPublic = false := by
            by_contra isPublic
            exact found (mem_publicNames_iff.mpr ⟨l, List.mem_of_find?_eq_some first,
              by simpa using isPublic, by simpa using List.find?_some first⟩)
          simp [isExternal, isPrivate]

/-- A relocation that can only have a public target stays as it is. -/
theorem remainder_of_settled {o : Object} {r : Relocation} (settled : o.Settled r) :
    o.remainder r = some r := by
  rw [remainder, target?_of_settled settled]
  cases found : o.publicLabel? r.label with
  | some l =>
      obtain ⟨-, -, isPublic⟩ := publicLabel?_eq_some found
      simp [isPublic]
  | none =>
      have isExternal := settled.resolve_right (publicLabel?_eq_none_iff.mp found)
      simp [← isExternal]

/-- What linking needs of an object, and gives back. -/
structure Sound (o : Object) : Prop where
  labels : ∀ l ∈ o.labels, l.InBounds o.code.length
  relocations : ∀ r ∈ o.relocations, r.InBounds o.code.length
  settled : ∀ r ∈ o.relocations, o.Settled r

theorem Sound.inCode {o : Object} (sound : o.Sound) :
    ∀ r ∈ o.relocations, r.InCode o.code.length :=
  fun r member => (sound.relocations r member).inCode

theorem written_relocations_of_settled {o : Object} (settled : ∀ r ∈ o.relocations, o.Settled r) :
    o.written.relocations = o.relocations := by
  have same : o.relocations.filterMap o.remainder = o.relocations.filterMap some := by
    apply List.filterMap_congr
    intro r member
    exact remainder_of_settled (settled r member)
  rw [written, same, List.filterMap_some]

theorem Sound.written_relocations {o : Object} (sound : o.Sound) :
    o.written.relocations = o.relocations :=
  written_relocations_of_settled sound.settled

theorem settled_of_remainder {o : Object} {r s : Relocation} (remains : o.remainder r = some s) :
    s.label = r.label ∧ s.offset = r.offset ∧ s.size = r.size ∧ s.relativeTo = r.relativeTo ∧
      o.Settled s := by
  unfold remainder at remains
  split at remains
  · cases remains
    exact ⟨rfl, rfl, rfl, rfl, Or.inl rfl⟩
  · rename_i l target
    split at remains
    · rename_i isPublic
      cases remains
      obtain ⟨member, named⟩ := mem_of_target?_eq_some target
      exact ⟨rfl, rfl, rfl, rfl, Or.inr (mem_publicNames_iff.mpr ⟨l, member, isPublic, named⟩)⟩
    · cases remains

theorem settled_written {o : Object} : ∀ s ∈ o.written.relocations, o.written.Settled s := by
  intro s member
  obtain ⟨r, -, remains⟩ := List.mem_filterMap.mp member
  exact (settled_of_remainder remains).2.2.2.2

theorem sound_written {o : Object} (labels : ∀ l ∈ o.labels, l.InBounds o.code.length)
    (relocations : ∀ r ∈ o.relocations, r.InBounds o.code.length) : o.written.Sound where
  labels := by
    rw [length_written_code]
    exact labels
  relocations := by
    rw [length_written_code]
    intro s member
    obtain ⟨r, isRelocation, remains⟩ := List.mem_filterMap.mp member
    obtain ⟨-, offset, size, relativeTo, -⟩ := settled_of_remainder remains
    obtain ⟨sizeBound, offsetBound, field, relativeToBound⟩ := relocations r isRelocation
    rw [← size] at sizeBound field
    rw [← offset] at offsetBound field
    rw [← relativeTo] at field relativeToBound
    exact ⟨sizeBound, offsetBound, field, relativeToBound⟩
  settled := settled_written

/-! ### Joining objects -/

theorem eq_of_parts {o other : Object} (code : o.code = other.code)
    (labels : o.labels = other.labels) (relocations : o.relocations = other.relocations) :
    o = other := by
  cases o
  cases other
  cases code
  cases labels
  cases relocations
  rfl

def join (a b : Object) : Object := (a.pad linkAlignment).append b

theorem length_pad_code (a : Object) : (a.pad linkAlignment).code.length = a.linkBase := by
  simp [pad, linkBase]

theorem length_join_code (a b : Object) :
    (a.join b).code.length = a.linkBase + b.code.length := by
  rw [join, append, List.length_append, length_pad_code]

theorem length_le_linkBase (a : Object) : a.code.length ≤ a.linkBase := Nat.le_add_right _ _

theorem length_le_length_join (a b : Object) :
    a.code.length ≤ (a.join b).code.length ∧ b.code.length ≤ (a.join b).code.length := by
  have := a.length_le_linkBase
  rw [length_join_code]
  omega

theorem join_labels (a b : Object) :
    (a.join b).labels = a.labels ++ b.labels.map (Label.shift a.linkBase) := by
  rw [join, append, length_pad_code]
  rfl

theorem join_relocations (a b : Object) :
    (a.join b).relocations = a.relocations ++ b.relocations.map (Relocation.shift a.linkBase) := by
  rw [join, append, length_pad_code]
  rfl

theorem publicNames_join (a b : Object) :
    (a.join b).publicNames = a.publicNames ++ b.publicNames := by
  simp only [publicNames, join_labels, List.filter_append, List.map_append, List.filter_map,
    List.map_map]
  rfl

theorem publicLabel?_join (a b : Object) (name : Text) :
    (a.join b).publicLabel? name =
      (a.publicLabel? name).or ((b.publicLabel? name).map (Label.shift a.linkBase)) := by
  rw [publicLabel?, join_labels, List.find?_append, List.find?_map]
  rfl

theorem mod_linkBase (a : Object) : a.linkBase % 16 = 0 := by
  unfold linkBase paddingFor linkAlignment
  omega

theorem linkBase_join (a b : Object) : (a.join b).linkBase = a.linkBase + b.linkBase := by
  have aligned := a.mod_linkBase
  rw [linkBase, length_join_code, linkBase, linkBase]
  rw [linkBase] at aligned
  unfold paddingFor linkAlignment at *
  omega

theorem wrap64_add_wrap64 (value : Int) (first second : Nat) :
    wrap64 (wrap64 (value + second) + first) = wrap64 (value + (first + second : Nat)) := by
  rw [wrap64, wrap64, Int.bmod_add_bmod, wrap64, Nat.cast_add, add_assoc, add_comm (second : Int)]

theorem shift_shift_label (first second : Nat) :
    Label.shift first ∘ Label.shift second = Label.shift (first + second) := by
  funext l
  simp only [Function.comp_apply, Label.shift, wrap64_add_wrap64]

theorem shift_shift_relocation (first second : Nat) :
    Relocation.shift first ∘ Relocation.shift second = Relocation.shift (first + second) := by
  funext r
  simp only [Function.comp_apply, Relocation.shift, wrap64_add_wrap64]

theorem join_assoc (a b c : Object) : (a.join b).join c = a.join (b.join c) := by
  have base := linkBase_join a b
  have code : ((a.join b).join c).code = (a.join (b.join c)).code := by
    have padding : paddingFor linkAlignment (a.join b).code.length =
        paddingFor linkAlignment b.code.length := by
      rw [linkBase, length_join_code, linkBase.eq_1 b] at base
      rw [length_join_code]
      omega
    rw [join, append, pad]
    dsimp only
    rw [padding]
    simp only [join, append, pad, List.append_assoc]
  have labels : ((a.join b).join c).labels = (a.join (b.join c)).labels := by
    simp only [join_labels, base, List.map_append, List.map_map, List.append_assoc,
      shift_shift_label]
  have relocations : ((a.join b).join c).relocations = (a.join (b.join c)).relocations := by
    simp only [join_relocations, base, List.map_append, List.map_map, List.append_assoc,
      shift_shift_relocation]
  exact eq_of_parts code labels relocations

section Join

variable {a b : Object} (soundA : a.Sound) (soundB : b.Sound)

theorem Settled.join_left {r : Relocation} (settled : a.Settled r) (b : Object) :
    (a.join b).Settled r := by
  rw [Settled, publicNames_join, List.mem_append]
  exact settled.imp_right Or.inl

include soundA soundB in
theorem Sound.join (addressable : Addressable (a.join b).code.length) : (a.join b).Sound := by
  have longer := (length_le_length_join a b).1
  have length := length_join_code a b
  rw [length] at addressable
  refine ⟨?_, ?_, ?_⟩
  · intro l member
    rw [join_labels, List.mem_append, List.mem_map] at member
    rcases member with inA | ⟨l, inB, rfl⟩
    · exact (soundA.labels l inA).mono longer
    · rw [length]
      exact (soundB.labels l inB).shift addressable
  · intro r member
    rw [join_relocations, List.mem_append, List.mem_map] at member
    rcases member with inA | ⟨r, inB, rfl⟩
    · exact (soundA.relocations r inA).mono longer
    · rw [length]
      exact (soundB.relocations r inB).shift addressable
  · intro r member
    rw [join_relocations, List.mem_append, List.mem_map] at member
    rcases member with inA | ⟨r, inB, rfl⟩
    · exact (soundA.settled r inA).join_left b
    · exact Or.inl rfl

theorem clash?_eq_none_iff :
    a.clash? b = none ↔ ∀ name ∈ b.publicNames, name ∉ a.publicNames := by
  simp [clash?]

include soundA in
theorem target?_join_left {r : Relocation} {l : Label} (member : r ∈ a.relocations)
    (target : a.target? r = some l) : (a.join b).target? r = some l := by
  have settled := soundA.settled r member
  rw [target?_of_settled settled] at target
  rw [target?_of_settled (settled.join_left b), publicLabel?_join, target, Option.some_or]

include soundB in
/-- A relocation of the second object that has a target keeps it, unless names clash. -/
theorem target?_join_right {r : Relocation} {l : Label} (noClash : a.clash? b = none)
    (member : r ∈ b.relocations) (target : b.target? r = some l) :
    (a.join b).target? (r.shift a.linkBase) = some (l.shift a.linkBase) := by
  rw [target?_of_settled (soundB.settled r member)] at target
  obtain ⟨inB, named, isPublic⟩ := publicLabel?_eq_some target
  have absent : a.publicLabel? r.label = none :=
    publicLabel?_eq_none_iff.mpr (clash?_eq_none_iff.mp noClash r.label
      (mem_publicNames_iff.mpr ⟨l, inB, isPublic, named⟩))
  rw [target?_of_settled (Or.inl rfl), publicLabel?_join]
  simp only [Relocation.shift]
  rw [absent, target]
  rfl

theorem Sound.target_inBounds {o : Object} (sound : o.Sound) {r : Relocation} {l : Label}
    (member : r ∈ o.relocations) (target : o.target? r = some l) : l.InBounds o.code.length := by
  rw [target?_of_settled (sound.settled r member)] at target
  exact sound.labels l (publicLabel?_eq_some target).1

theorem Sound.writable_iff {o : Object} (sound : o.Sound)
    (addressable : Addressable o.code.length) {r : Relocation} {l : Label}
    (member : r ∈ o.relocations) (target : o.target? r = some l) :
    o.Writable r l ↔ r.Reaches l :=
  Object.writable_iff addressable (sound.relocations r member).inCode
    ((sound.relocations r member).isOffset addressable)
    ((sound.target_inBounds member target).isOffset addressable)

include soundA soundB

theorem AllWritable.of_join_left (addressable : Addressable (a.join b).code.length)
    (writable : (a.join b).AllWritable) : a.AllWritable := by
  intro r member l target
  have joined : r ∈ (a.join b).relocations := by
    rw [join_relocations]
    exact List.mem_append_left _ member
  have joinedTarget := target?_join_left (b := b) soundA member target
  have reaches := (soundA.join soundB addressable).writable_iff addressable joined joinedTarget
    |>.mp (writable r joined l joinedTarget)
  exact (soundA.writable_iff (addressable.mono (length_le_length_join a b).1) member target).mpr
    reaches

theorem AllWritable.of_join_right (addressable : Addressable (a.join b).code.length)
    (noClash : a.clash? b = none) (writable : (a.join b).AllWritable) : b.AllWritable := by
  intro r member l target
  have joined : r.shift a.linkBase ∈ (a.join b).relocations := by
    rw [join_relocations]
    exact List.mem_append_right _ (List.mem_map_of_mem member)
  have joinedTarget := target?_join_right soundB noClash member target
  have reaches := (soundA.join soundB addressable).writable_iff addressable joined joinedTarget
    |>.mp (writable _ joined _ joinedTarget)
  have shifted : Addressable (a.linkBase + b.code.length) := length_join_code a b ▸ addressable
  rw [Relocation.reaches_shift_iff shifted (soundB.relocations r member)
    (soundB.target_inBounds member target)] at reaches
  exact (soundB.writable_iff (addressable.mono (length_le_length_join a b).2) member target).mpr
    reaches

end Join

/-! ### Locating before joining -/

theorem allWritable_congr {o other : Object} (length : o.code.length = other.code.length)
    (labels : o.labels = other.labels) (relocations : o.relocations = other.relocations) :
    o.AllWritable ↔ other.AllWritable := by
  simp only [AllWritable, Writable, Passes, patch, target?, label?, length, labels, relocations]

theorem written_congr {o other : Object} (length : o.code.length = other.code.length)
    (labels : o.labels = other.labels) (relocations : o.relocations = other.relocations)
    (agree : ∀ position,
      Patch.Covered o.patches position ∨ o.code[position]? = other.code[position]?) :
    o.written = other.written := by
  have targets : o.target? = other.target? := by
    funext r
    simp only [target?, label?, labels]
  have patches : o.patches = other.patches := by
    simp only [Object.patches, targets, relocations]
  have remainders : o.remainder = other.remainder := by
    funext r
    simp only [remainder, targets]
  apply eq_of_parts
  · rw [written, written, ← patches]
    exact Patch.foldl_apply_congr length agree
  · exact labels
  · simp only [written, remainders, relocations]

theorem Sound.written_written {o : Object} (sound : o.Sound) : o.written.written = o.written := by
  symm
  apply written_congr
  · exact (length_written_code o).symm
  · rfl
  · exact sound.written_relocations.symm
  · intro position
    by_cases covered : Patch.Covered o.patches position
    · exact Or.inl covered
    · exact Or.inr (Patch.getElem?_foldl_apply_of_not_covered o.code covered).symm

@[simp]
theorem linkBase_written (a : Object) : a.written.linkBase = a.linkBase := by
  rw [linkBase, linkBase, length_written_code]

theorem join_code (a b : Object) :
    (a.join b).code = a.code ++ (List.replicate (paddingFor linkAlignment a.code.length) 0 ++
      b.code) := by
  simp only [join, append, pad, List.append_assoc]

section Absorb

variable {a b : Object}

theorem mem_patches_join_left (soundA : a.Sound) {p : Patch} (member : p ∈ a.patches) :
    p ∈ (a.join b).patches := by
  obtain ⟨r, isRelocation, l, target, rfl⟩ := mem_patches_iff.mp member
  refine mem_patches_iff.mpr ⟨r, ?_, l, target?_join_left soundA isRelocation target, rfl⟩
  rw [join_relocations]
  exact List.mem_append_left _ isRelocation

theorem mem_patches_join_right (soundB : b.Sound) (noClash : a.clash? b = none)
    (addressable : Addressable (a.join b).code.length) {p : Patch} (member : p ∈ b.patches) :
    p.shift a.linkBase ∈ (a.join b).patches := by
  obtain ⟨r, isRelocation, l, target, rfl⟩ := mem_patches_iff.mp member
  rw [length_join_code] at addressable
  refine mem_patches_iff.mpr ⟨r.shift a.linkBase, ?_, l.shift a.linkBase,
    target?_join_right soundB noClash isRelocation target,
    Relocation.patchTo_shift addressable (soundB.relocations r isRelocation)
      (soundB.target_inBounds isRelocation target)⟩
  rw [join_relocations]
  exact List.mem_append_right _ (List.mem_map_of_mem isRelocation)

theorem written_join_written_left (soundA : a.Sound) (b : Object) :
    (a.written.join b).written = (a.join b).written := by
  symm
  apply written_congr
  · simp only [length_join_code, linkBase_written]
  · simp only [join_labels, written_labels, linkBase_written]
  · simp only [join_relocations, soundA.written_relocations, linkBase_written]
  · intro position
    by_cases covered : Patch.Covered a.patches position
    · obtain ⟨p, member, covers⟩ := covered
      exact Or.inl ⟨p, mem_patches_join_left soundA member, covers⟩
    · right
      have same : a.written.code[position]? = a.code[position]? :=
        Patch.getElem?_foldl_apply_of_not_covered a.code covered
      simp only [join_code, List.getElem?_append, length_written_code, same]

theorem written_join_written_right (soundB : b.Sound) (noClash : a.clash? b = none)
    (addressable : Addressable (a.join b).code.length) :
    (a.join b.written).written = (a.join b).written := by
  symm
  apply written_congr
  · simp only [length_join_code, length_written_code]
  · simp only [join_labels, written_labels]
  · simp only [join_relocations, soundB.written_relocations]
  · intro position
    have front (c : Object) : (a.join c).code = (a.pad linkAlignment).code ++ c.code := rfl
    by_cases covered : Patch.Covered b.patches (position - a.linkBase) ∧ a.linkBase ≤ position
    · obtain ⟨⟨p, member, covers⟩, reached⟩ := covered
      refine Or.inl ⟨_, mem_patches_join_right soundB noClash addressable member, ?_⟩
      simp only [Patch.Covers, Patch.shift, Patch.length_bytes] at *
      omega
    · right
      rw [front, front, List.getElem?_append, List.getElem?_append, length_pad_code]
      split
      · rfl
      · have outside : ¬ Patch.Covered b.patches (position - a.linkBase) :=
          fun inside => covered ⟨inside, by omega⟩
        exact (Patch.getElem?_foldl_apply_of_not_covered b.code outside).symm

/-- Linking locates both objects, and then the two of them joined. -/
theorem link_eq_ok_iff_stages {o : Object} :
    (a.link b).result = .ok o ↔
      a.AllWritable ∧ b.AllWritable ∧ a.clash? b = none ∧
        (a.written.join b.written).AllWritable ∧ o = (a.written.join b.written).written := by
  constructor
  · intro linked
    unfold link at linked
    split at linked
    · cases linked
    · rename_i aLocated locatedA
      obtain ⟨writableA, rfl⟩ := locatePartially_eq_ok_iff.mp locatedA
      split at linked
      · cases linked
      · rename_i bLocated locatedB
        obtain ⟨writableB, rfl⟩ := locatePartially_eq_ok_iff.mp locatedB
        unfold linkLocated at linked
        split at linked
        · cases linked
        · rename_i noClash
          rw [mapError_eq_ok_iff, locatePartially_eq_ok_iff] at linked
          exact ⟨writableA, writableB, noClash, linked⟩
  · rintro ⟨writableA, writableB, noClash, writable, rfl⟩
    have locatedA := locatePartially_eq_ok_iff.mpr ⟨writableA, rfl⟩
    have locatedB := locatePartially_eq_ok_iff.mpr ⟨writableB, rfl⟩
    have noClashWritten : a.written.clash? b.written = none := noClash
    rw [link, locatedA, locatedB]
    simp only [linkLocated, noClashWritten]
    rw [mapError_eq_ok_iff, locatePartially_eq_ok_iff]
    exact ⟨writable, rfl⟩

theorem link_eq_ok_iff (soundA : a.Sound) (soundB : b.Sound)
    (addressable : Addressable (a.join b).code.length) {o : Object} :
    (a.link b).result = .ok o ↔
      a.clash? b = none ∧ (a.join b).AllWritable ∧ o = (a.join b).written := by
  have joined : (a.written.join b.written).AllWritable ↔ (a.join b).AllWritable := by
    apply allWritable_congr
    · simp only [length_join_code, linkBase_written, length_written_code]
    · simp only [join_labels, written_labels, linkBase_written]
    · simp only [join_relocations, soundA.written_relocations, soundB.written_relocations,
        linkBase_written]
  have absorbed (noClash : a.clash? b = none) :
      (a.written.join b.written).written = (a.join b).written := by
    rw [written_join_written_left soundA, written_join_written_right soundB noClash addressable]
  rw [link_eq_ok_iff_stages, joined]
  constructor
  · rintro ⟨-, -, noClash, writable, rfl⟩
    exact ⟨noClash, writable, absorbed noClash⟩
  · rintro ⟨noClash, writable, rfl⟩
    exact ⟨AllWritable.of_join_left soundA soundB addressable writable,
      AllWritable.of_join_right soundA soundB addressable noClash writable,
      noClash, writable, (absorbed noClash).symm⟩

end Absorb

end Object

end Asm64
