import Asm64.Proofs.Object.Fields

/-!
# What linking does to each of the two objects

Either object stands in the result at an offset: the first at the front, the second behind the
padding.  Both sides are treated alike.  Seen from one object, a reference that it resolves itself
keeps its bytes, a reference that it leaves open is bound to the public label of the other object
if there is one, and nothing else changes.
-/

namespace Asm64

def Label.moved (base : Nat) (l : Label) : Label := { l with value := l.value + base }

theorem Label.shift_eq_moved {l : Label} {base length : Nat}
    (addressable : Addressable (base + length)) (bounds : l.InBounds length) :
    l.shift base = l.moved base := by
  rw [Label.moved, ← Label.shift_value addressable bounds]
  rfl

namespace Relocation

theorem moved_zero (r : Relocation) : r.moved 0 = r := by
  simp [moved]

theorem covers_moved_iff (r : Relocation) (base position : Nat) :
    (r.moved base).Covers (base + position) ↔ r.Covers position := by
  simp only [Covers, moved]
  omega

theorem field_moved_eq {r : Relocation} (nonnegative : 0 ≤ r.offset) {base : Nat}
    {code other : List UInt8}
    (agree : ∀ position, r.Covers position → code[base + position]? = other[position]?) :
    (r.moved base).field code = r.field other := by
  apply List.ext_getElem?
  intro i
  simp only [field, moved, List.getElem?_take, List.getElem?_drop]
  split
  · rename_i inside
    have same := agree (r.offset.toNat + i) ⟨by omega, by omega⟩
    rwa [show (r.offset + (base : Int)).toNat + i = base + (r.offset.toNat + i) by omega]
  · rfl

end Relocation

namespace Object

/-! ### An object in a longer one -/

/-- The code, the labels and the relocations of an object are those of a longer one at an offset,
and the longer one has no other field there. -/
structure StandsIn (x whole : Object) (base : Nat) : Prop where
  code : ∀ position < x.code.length, whole.code[base + position]? = x.code[position]?
  labels : ∀ l ∈ x.labels, l.moved base ∈ whole.labels
  relocations : ∀ r ∈ x.relocations, ∃ s ∈ whole.relocations,
    s.SameField (r.moved base) ∧ (r.isExternal = true → s.isExternal = true)
  alone : ∀ s ∈ whole.relocations, ∀ position < x.code.length, s.Covers (base + position) →
    ∃ r ∈ x.relocations, s.SameField (r.moved base)

section Join

variable {a b : Object} (wellFormedA : a.WellFormed) (wellFormedB : b.WellFormed)
  (addressable : Addressable (a.linkBase + b.code.length))

include wellFormedB addressable in
theorem standsIn_join_left : a.StandsIn (a.join b) 0 where
  code := by
    intro position inside
    rw [Nat.zero_add, join_code, List.getElem?_append_left inside]
  labels := by
    intro l member
    rw [join_labels]
    apply List.mem_append_left
    simpa [Label.moved] using member
  relocations := by
    intro r member
    rw [join_relocations, Relocation.moved_zero]
    exact ⟨r, List.mem_append_left _ member, ⟨rfl, rfl, rfl, rfl⟩, id⟩
  alone := by
    intro s member position inside covers
    rw [Nat.zero_add] at covers
    rw [join_relocations, List.mem_append, List.mem_map] at member
    rcases member with inA | ⟨r, inB, rfl⟩
    · exact ⟨s, inA, by rw [Relocation.moved_zero]; exact ⟨rfl, rfl, rfl, rfl⟩⟩
    · -- Fields of the second object start behind the padding.
      have behind := (Relocation.covers_shift_iff addressable (wellFormedB.inCode r inB) _).mp
        covers
      have longer := a.length_le_linkBase
      omega

include wellFormedA wellFormedB addressable in
theorem standsIn_join_right
    (measured : ∀ r ∈ b.relocations, r.relativeTo + a.linkBase < 2 ^ 63) :
    b.StandsIn (a.join b) a.linkBase := by
  have same (r : Relocation) (inB : r ∈ b.relocations) :
      (r.shift a.linkBase).SameField (r.moved a.linkBase) :=
    ⟨rfl, Relocation.shift_offset addressable (wellFormedB.inCode r inB), rfl,
      Relocation.shift_relativeTo_of_lt (wellFormedB.measured r inB).1 (measured r inB)⟩
  refine ⟨?_, ?_, ?_, ?_⟩
  · intro position inside
    have front : (a.join b).code = (a.pad linkAlignment).code ++ b.code := rfl
    rw [front, List.getElem?_append_right (by rw [length_pad_code]; omega), length_pad_code,
      Nat.add_sub_cancel_left]
  · intro l member
    rw [join_labels]
    apply List.mem_append_right
    rw [← Label.shift_eq_moved addressable (wellFormedB.labels l member)]
    exact List.mem_map_of_mem member
  · intro r member
    rw [join_relocations]
    exact ⟨r.shift a.linkBase, List.mem_append_right _ (List.mem_map_of_mem member),
      same r member, fun _ => rfl⟩
  · intro s member position inside covers
    rw [join_relocations, List.mem_append, List.mem_map] at member
    rcases member with inA | ⟨r, inB, rfl⟩
    · have field := (wellFormedA.inCode s inA).field
      have longer := a.length_le_linkBase
      have ends := covers.2
      push_cast at ends
      omega
    · exact ⟨r, inB, same r inB⟩

theorem settled_join_written {s : Relocation}
    (member : s ∈ (a.written.join b.written).relocations) :
    (a.written.join b.written).Settled s := by
  rcases mem_join_written_relocations.mp member with ⟨r, -, remains⟩ | ⟨r, -, t, -, rfl⟩
  · have settled : a.written.Settled s := (settled_of_remainder remains).2.2.2.2
    exact settled.join_left b.written
  · exact Or.inl rfl

end Join

/-! ### One of two objects that are linked -/

/-- What linking does to an object `x` that stands at `base` in the result, while `y` stands at
`otherBase`. -/
structure LinkedInto (x located y o : Object) (base otherBase : Nat) : Prop where
  /-- A reference that the object resolves itself keeps its bytes. -/
  kept : ∀ r ∈ x.relocations, ∀ l, x.target? r = some l →
    (r.moved base).field o.code = r.field located.code ∧
      signedOfLittleEndian ((r.moved base).field o.code) = l.value - r.relativeTo
  /-- An open reference is written with the distance to the public label of the other object. -/
  bound : ∀ r ∈ x.relocations, x.target? r = none →
    ∀ l ∈ y.labels, l.isPublic = true → l.name = r.label →
      signedOfLittleEndian ((r.moved base).field o.code) =
        (l.moved otherBase).value - (r.moved base).relativeTo
  /-- Without such a label it stays open, and its bytes are as they were. -/
  waiting : ∀ r ∈ x.relocations, x.target? r = none →
    (∀ l ∈ y.labels, l.isPublic = true → l.name ≠ r.label) →
      (r.moved base).field o.code = r.field x.code ∧
        { r.moved base with isExternal := true } ∈ o.relocations
  unchanged : ∀ position < x.code.length, (∀ r ∈ x.relocations, ¬ r.Covers position) →
    o.code[base + position]? = x.code[position]?

section Sides

variable {x y whole : Object} {base otherBase : Nat}
  (wellFormed : x.WellFormed) (stands : x.written.StandsIn whole base)
  (joined : whole.WellFormed) (settled : ∀ s ∈ whole.relocations, whole.Settled s)
  (names : ∀ name ∈ whole.publicNames, name ∈ x.publicNames ∨ name ∈ y.publicNames)

include stands joined settled names in
/-- Bytes that no field covers are not written when the whole is located, nor are those of a field
whose relocation is gone or has no label. -/
theorem getElem?_whole {position : Nat} (inside : position < x.code.length)
    (idle : ∀ r ∈ x.relocations, r.Covers position →
      x.remainder r = none ∨ x.target? r = none ∧ r.label ∉ y.publicNames) :
    whole.written.code[base + position]? = x.written.code[position]? := by
  rw [← length_written_code] at inside
  rw [← stands.code position inside]
  apply getElem?_written_code joined.inCode
  intro s member defined covers
  obtain ⟨t, remaining, same⟩ := stands.alone s member position inside covers
  obtain ⟨r, isRelocation, remains⟩ := mem_written_relocations.mp remaining
  have sameRemainder := sameField_of_remainder remains
  rw [same.covers_iff, Relocation.covers_moved_iff, sameRemainder.covers_iff] at covers
  rcases idle r isRelocation covers with gone | ⟨missing, absent⟩
  · rw [gone] at remains
    cases remains
  · apply defined
    have label : s.label = r.label := same.1.trans sameRemainder.1
    rw [target?_of_settled (settled s member), publicLabel?_eq_none_iff, label]
    intro isName
    rcases names r.label isName with inX | inY
    · obtain ⟨l, found⟩ := Option.ne_none_iff_exists'.mp
        (mt publicLabel?_eq_none_iff.mp (not_not_intro inX))
      rw [target?_of_publicLabel? found] at missing
      cases missing
    · exact absent inY

include wellFormed stands joined in
/-- A reference to a public label of its own object is written once more with the same bytes. -/
theorem field_whole_of_public {r : Relocation} {l : Label} (member : r ∈ x.relocations)
    (target : x.target? r = some l) (isPublic : l.isPublic = true) :
    (r.moved base).field whole.written.code = r.field x.written.code := by
  have remains : x.remainder r = some r := by
    simp [remainder, target, isPublic]
  obtain ⟨s, memberS, same, -⟩ :=
    stands.relocations r (mem_written_relocations.mpr ⟨r, member, remains⟩)
  obtain ⟨defined, named⟩ := mem_of_target?_eq_some target
  have targetS : whole.target? s = some (l.moved base) :=
    target?_of_publicLabel? ((publicLabel?_eq_some_iff joined.distinct).mpr
      ⟨stands.labels l defined, named.trans same.1.symm, isPublic⟩)
  have distance : s.distance (l.moved base) = r.distance l := by
    rw [Relocation.distance, Relocation.distance, same.2.2.2]
    congr 1
    simp only [Label.moved, Relocation.moved]
    omega
  rw [← same.field_eq, field_written_code joined.inCode joined.disjoint memberS targetS,
    field_written_code wellFormed.inCode wellFormed.disjoint member target, Relocation.patchTo,
    Relocation.patchTo, distance, same.2.2.1]
  rfl

include wellFormed stands joined settled names in
theorem field_whole_of_target {r : Relocation} {l : Label} (member : r ∈ x.relocations)
    (target : x.target? r = some l) :
    (r.moved base).field whole.written.code = r.field x.written.code := by
  by_cases isPublic : l.isPublic = true
  · exact field_whole_of_public wellFormed stands joined member target isPublic
  · have inCode := wellFormed.inCode r member
    apply Relocation.field_moved_eq inCode.offset
    intro position covers
    apply getElem?_whole stands joined settled names
      (by have := inCode.field; have := covers.2; omega)
    intro other isRelocation coversOther
    rw [eq_of_covers wellFormed.disjoint isRelocation member coversOther covers]
    left
    simp [remainder, target, isPublic]

include wellFormed stands joined settled names in
theorem field_whole_of_open {r : Relocation} (member : r ∈ x.relocations)
    (missing : x.target? r = none) (absent : r.label ∉ y.publicNames) :
    (r.moved base).field whole.written.code = r.field x.code := by
  have inCode := wellFormed.inCode r member
  have only {other : Relocation} {position : Nat} (isRelocation : other ∈ x.relocations)
      (covers : r.Covers position) (coversOther : other.Covers position) : other = r :=
    eq_of_covers wellFormed.disjoint isRelocation member coversOther covers
  apply Relocation.field_moved_eq inCode.offset
  intro position covers
  rw [getElem?_whole stands joined settled names
    (by have := inCode.field; have := covers.2; omega)]
  · apply getElem?_written_code wellFormed.inCode
    intro other isRelocation defined coversOther
    rw [only isRelocation covers coversOther] at defined
    exact defined missing
  · intro other isRelocation coversOther
    rw [only isRelocation covers coversOther]
    exact Or.inr ⟨missing, absent⟩

include stands settled in
theorem mem_whole_of_open {r : Relocation} (member : r ∈ x.relocations)
    (missing : x.target? r = none) :
    { r.moved base with isExternal := true } ∈ whole.written.relocations := by
  have remains : x.remainder r = some { r with isExternal := true } := by
    rw [remainder, missing]
  obtain ⟨s, memberS, ⟨label, offset, size, relativeTo⟩, isExternal⟩ :=
    stands.relocations _ (mem_written_relocations.mpr ⟨r, member, remains⟩)
  have external : s = { r.moved base with isExternal := true } := by
    cases s
    simp_all [Relocation.moved]
  rw [← external]
  exact mem_written_relocations.mpr ⟨s, memberS, remainder_of_settled (settled s memberS)⟩

variable (addressable : Addressable whole.code.length) (shorter : x.code.length ≤ whole.code.length)
  (writable : x.AllWritable) (writableJoined : whole.AllWritable)
  (other : y.written.StandsIn whole otherBase)

include wellFormed stands joined settled names addressable shorter writable writableJoined other in
theorem linkedInto_whole : x.LinkedInto x.written y whole.written base otherBase where
  kept := by
    intro r member l target
    have same := field_whole_of_target wellFormed stands joined settled names member target
    refine ⟨same, ?_⟩
    rw [same]
    exact wellFormed.held_written (addressable.mono shorter) writable member target
  bound := by
    intro r member missing l defined isPublic named
    have remains : x.remainder r = some { r with isExternal := true } := by
      rw [remainder, missing]
    obtain ⟨s, memberS, same, -⟩ :=
      stands.relocations _ (mem_written_relocations.mpr ⟨r, member, remains⟩)
    have target : whole.target? s = some (l.moved otherBase) :=
      target?_of_publicLabel? ((publicLabel?_eq_some_iff joined.distinct).mpr
        ⟨other.labels l defined, named.trans same.1.symm, isPublic⟩)
    have held := joined.held_written addressable writableJoined memberS target
    rw [same.field_eq, same.2.2.2] at held
    exact held
  waiting := by
    intro r member missing absent
    have notPublic : r.label ∉ y.publicNames := by
      rw [mem_publicNames_iff]
      rintro ⟨l, defined, isPublic, named⟩
      exact absent l defined isPublic named
    exact ⟨field_whole_of_open wellFormed stands joined settled names member missing notPublic,
      mem_whole_of_open stands settled member missing⟩
  unchanged := by
    intro position inside outside
    rw [getElem?_whole stands joined settled names inside
      fun r member covers => absurd covers (outside r member)]
    exact getElem?_written_code wellFormed.inCode fun r member _ => outside r member

end Sides

/-! ### Both objects -/

theorem linkBase_isLeast (a : Object) :
    IsLeast {n | 16 ∣ n ∧ a.code.length ≤ n} a.linkBase := by
  constructor
  · exact ⟨Nat.dvd_of_mod_eq_zero a.mod_linkBase, a.length_le_linkBase⟩
  · rintro n ⟨⟨k, rfl⟩, longer⟩
    unfold linkBase paddingFor linkAlignment
    omega

theorem getElem?_padding {a b : Object} (inCode : ∀ r ∈ a.relocations, r.InCode a.code.length)
    (inCodeB : ∀ r ∈ b.relocations, r.InCode b.code.length)
    (addressable : Addressable (a.linkBase + b.code.length)) {position : Nat}
    (behind : a.code.length ≤ position) (before : position < a.linkBase) :
    (a.join b).written.code[position]? = some 0 := by
  rw [getElem?_written_code (inCode_join inCode inCodeB addressable), join_code,
    List.getElem?_append_right behind, List.getElem?_append_left, List.getElem?_replicate_of_lt]
  · rw [linkBase] at before
    omega
  · rw [List.length_replicate]
    rw [linkBase] at before
    omega
  · intro s member _ covers
    rw [join_relocations, List.mem_append, List.mem_map] at member
    rcases member with inA | ⟨r, inB, rfl⟩
    · have field := (inCode s inA).field
      have ends := covers.2
      omega
    · have reached := (Relocation.covers_shift_iff addressable (inCodeB r inB) _).mp covers
      omega

/-- Linking resolves the references that it should and disturbs nothing else. -/
theorem link_resolves_exactly {a b o : Object} (wellFormedA : a.WellFormed)
    (wellFormedB : b.WellFormed) (addressable : Addressable (a.linkBase + b.code.length))
    (measured : ∀ r ∈ b.relocations, r.relativeTo + a.linkBase < 2 ^ 63)
    (linked : (a.link b).result = .ok o) :
    ∃ a' b' base, a.locatePartially = .ok a' ∧ b.locatePartially = .ok b' ∧
      IsLeast {n | 16 ∣ n ∧ a'.code.length ≤ n} base ∧
      o.code.length = base + b'.code.length ∧
      o.labels = a.labels ++ b.labels.map (Label.moved base) ∧
      a.LinkedInto a' b o 0 base ∧ b.LinkedInto b' a o base 0 ∧
      ∀ position, a'.code.length ≤ position → position < base → o.code[position]? = some 0 := by
  obtain ⟨writableA, writableB, noClash, writable, rfl⟩ := link_eq_ok_iff_stages.mp linked
  have locatedA := wellFormedA.written
  have locatedB := wellFormedB.written
  have shifted : Addressable (a.written.linkBase + b.written.code.length) := by
    rwa [linkBase_written, length_written_code]
  have measuredB : ∀ r ∈ b.written.relocations, r.relativeTo + a.written.linkBase < 2 ^ 63 := by
    intro s member
    obtain ⟨r, isRelocation, remains⟩ := mem_written_relocations.mp member
    rw [(sameField_of_remainder remains).2.2.2, linkBase_written]
    exact measured r isRelocation
  have joined := locatedA.join locatedB shifted measuredB noClash
  have standsA := standsIn_join_left locatedB shifted
  have standsB := standsIn_join_right locatedA locatedB shifted measuredB
  have whole : Addressable (a.written.join b.written).code.length := by
    rwa [length_join_code]
  have settled : ∀ s ∈ (a.written.join b.written).relocations,
      (a.written.join b.written).Settled s := fun s => settled_join_written
  have names : ∀ name ∈ (a.written.join b.written).publicNames,
      name ∈ a.publicNames ∨ name ∈ b.publicNames := by
    intro name member
    rw [publicNames_join] at member
    exact List.mem_append.mp member
  have lengths := length_le_length_join a.written b.written
  rw [length_written_code, length_written_code] at lengths
  refine ⟨a.written, b.written, a.written.linkBase,
    locatePartially_eq_ok_iff.mpr ⟨writableA, rfl⟩, locatePartially_eq_ok_iff.mpr ⟨writableB, rfl⟩,
    linkBase_isLeast a.written, ?_, ?_, ?_, ?_, ?_⟩
  · rw [length_written_code, length_join_code]
  · rw [written_labels, join_labels, written_labels, written_labels, linkBase_written]
    congr 1
    apply List.map_congr_left
    intro l member
    exact Label.shift_eq_moved addressable (wellFormedB.labels l member)
  · exact linkedInto_whole wellFormedA standsA joined settled names whole lengths.1 writableA
      writable standsB
  · exact linkedInto_whole wellFormedB standsB joined settled
      (fun name member => (names name member).symm) whole lengths.2 writableB writable standsA
  · intro position behind before
    exact getElem?_padding locatedA.inCode locatedB.inCode shifted behind before

/-! Two objects with a reference of each kind: to a private label, to a label of the other object,
and to a label of neither.  Both have a private label of the same name. -/

def sampleCaller : Object :=
  ⟨[232, 0, 0, 0, 0, 232, 0, 0, 0, 0, 232, 1, 2, 3, 4],
    [⟨ascii "local", 0, false⟩, ⟨ascii "start", 5, true⟩],
    [⟨ascii "local", 1, 4, 5, false⟩, ⟨ascii "print", 6, 4, 10, false⟩,
      ⟨ascii "exit", 11, 4, 15, false⟩]⟩

def sampleCallee : Object :=
  ⟨[232, 0, 0, 0, 0, 233, 0], [⟨ascii "print", 0, true⟩, ⟨ascii "local", 5, false⟩],
    [⟨ascii "start", 1, 4, 5, false⟩, ⟨ascii "local", 6, 1, 7, false⟩]⟩

theorem wellFormed_of_ordered {o : Object}
    (labels : ∀ l ∈ o.labels, 0 ≤ l.value ∧ l.value ≤ o.code.length)
    (fields : ∀ r ∈ o.relocations, (r.size = 1 ∨ r.size = 2 ∨ r.size = 4 ∨ r.size = 8) ∧
      0 ≤ r.offset ∧ r.offset + r.size ≤ o.code.length)
    (measured : ∀ r ∈ o.relocations, 0 ≤ r.relativeTo ∧ r.relativeTo < 2 ^ 63)
    (ordered : o.relocations.Pairwise fun r s => r.offset + r.size ≤ s.offset)
    (distinct : o.publicNames.Nodup) : o.WellFormed where
  labels l member := ⟨(labels l member).1, (labels l member).2⟩
  inCode r member := ⟨(fields r member).1, (fields r member).2.1, (fields r member).2.2⟩
  measured := measured
  disjoint := ordered.imp Relocation.disjoint_of_ordered
  distinct := distinct

theorem link_resolves_exactly_sample :
    ∃ o, (sampleCaller.link sampleCallee).result = .ok o ∧ o.code.length = 23 ∧
      ∃ a' b', sampleCaller.locatePartially = .ok a' ∧ sampleCallee.locatePartially = .ok b' ∧
        sampleCaller.LinkedInto a' sampleCallee o 0 16 ∧
        sampleCallee.LinkedInto b' sampleCaller o 16 0 := by
  have wellFormedCaller : sampleCaller.WellFormed :=
    wellFormed_of_ordered (by decide) (by decide) (by decide) (by decide) (by decide)
  have wellFormedCallee : sampleCallee.WellFormed :=
    wellFormed_of_ordered (by decide) (by decide) (by decide) (by decide) (by decide)
  have evaluated : (sampleCaller.link sampleCallee).result.toOption.map (·.code.length) =
      some 23 := by decide +kernel
  simp only [Option.map_eq_some_iff, toOption_eq_some_iff] at evaluated
  obtain ⟨o, linked, length⟩ := evaluated
  obtain ⟨a', b', base, locatedA, locatedB, -, total, -, intoA, intoB, -⟩ :=
    link_resolves_exactly wellFormedCaller wellFormedCallee (by unfold Addressable; decide)
      (by decide) linked
  have behindPadding : base = 16 := by
    have located := (locatePartially_eq_ok_iff.mp locatedB).2
    rw [located, length_written_code, length] at total
    simpa [sampleCallee] using total.symm
  subst behindPadding
  exact ⟨o, linked, length, a', b', locatedA, locatedB, intoA, intoB⟩

end Object

end Asm64
