import Mathlib.Tactic
import Asm64.Object.Locate
import Asm64.Proofs.Word

/-!
# Patches

What code is after patches have been applied to it.  A patch changes the bytes it covers and no
others, so the order of patches that do not overlap does not matter, and bytes that will be
covered anyway may be changed before.
-/

namespace Asm64

@[simp]
theorem length_overwrite (code : List UInt8) (offset : Nat) (bytes : List UInt8) :
    (overwrite code offset bytes).length = code.length := by
  induction bytes generalizing code offset with
  | nil => rfl
  | cons byte rest inductionHypothesis => simp [overwrite, inductionHypothesis]

theorem getElem?_overwrite_of_outside {code bytes : List UInt8} {offset position : Nat}
    (outside : position < offset ∨ offset + bytes.length ≤ position) :
    (overwrite code offset bytes)[position]? = code[position]? := by
  induction bytes generalizing code offset with
  | nil => rfl
  | cons byte rest inductionHypothesis =>
      rw [List.length_cons] at outside
      rw [overwrite, inductionHypothesis (by omega)]
      exact List.getElem?_set_ne (by omega)

theorem getElem?_overwrite_of_inside {code bytes : List UInt8} {offset position : Nat}
    (reached : offset ≤ position) (within : position < offset + bytes.length)
    (bounded : position < code.length) :
    (overwrite code offset bytes)[position]? = bytes[position - offset]? := by
  induction bytes generalizing code offset with
  | nil =>
      rw [List.length_nil] at within
      omega
  | cons byte rest inductionHypothesis =>
      rw [List.length_cons] at within
      rw [overwrite]
      by_cases first : position = offset
      · subst first
        rw [getElem?_overwrite_of_outside (Or.inl (by omega)), Nat.sub_self]
        exact List.getElem?_set_self bounded
      · rw [inductionHypothesis (by omega) (by omega) (by simpa using bounded)]
        have step : position - offset = (position - (offset + 1)) + 1 := by omega
        rw [step, List.getElem?_cons_succ]

theorem overwrite_append_left {front back bytes : List UInt8} {offset : Nat}
    (within : offset + bytes.length ≤ front.length) :
    overwrite (front ++ back) offset bytes = overwrite front offset bytes ++ back := by
  induction bytes generalizing front offset with
  | nil => rfl
  | cons byte rest inductionHypothesis =>
      rw [List.length_cons] at within
      rw [overwrite, List.set_append_left _ _ (by omega),
        inductionHypothesis (by rw [List.length_set]; omega), overwrite]

theorem overwrite_append_right (front back bytes : List UInt8) (offset : Nat) :
    overwrite (front ++ back) (front.length + offset) bytes =
      front ++ overwrite back offset bytes := by
  induction bytes generalizing back offset with
  | nil => rfl
  | cons byte rest inductionHypothesis =>
      rw [overwrite, List.set_append_right _ _ (by omega), Nat.add_sub_cancel_left,
        Nat.add_assoc, inductionHypothesis, overwrite]

theorem overwrite_field {field bytes : List UInt8} (length : bytes.length = field.length)
    (front back : List UInt8) :
    overwrite (front ++ field ++ back) front.length bytes = front ++ bytes ++ back := by
  have whole : overwrite field 0 bytes = bytes := by
    apply List.ext_getElem?
    intro position
    by_cases inside : position < bytes.length
    · rw [getElem?_overwrite_of_inside (Nat.zero_le _) (by omega) (by omega), Nat.sub_zero]
    · rw [List.getElem?_eq_none (by rw [length_overwrite]; omega),
        List.getElem?_eq_none (by omega)]
  have atEnd := overwrite_append_right front field bytes 0
  rw [Nat.add_zero, whole] at atEnd
  rw [overwrite_append_left (by rw [List.length_append]; omega), atEnd]

theorem overwrite_of_length_le {code bytes : List UInt8} {offset : Nat}
    (behind : code.length ≤ offset) : overwrite code offset bytes = code := by
  induction bytes generalizing offset with
  | nil => rfl
  | cons byte rest inductionHypothesis =>
      rw [overwrite, List.set_eq_of_length_le behind, inductionHypothesis (by omega)]

theorem overwrite_take (code bytes : List UInt8) (offset : Nat) :
    overwrite code offset (bytes.take (code.length - offset)) = overwrite code offset bytes := by
  induction bytes generalizing code offset with
  | nil => rw [List.take_nil]
  | cons byte rest inductionHypothesis =>
      by_cases inside : offset < code.length
      · have more : code.length - offset = (code.set offset byte).length - (offset + 1) + 1 := by
          rw [List.length_set]
          omega
        rw [more, List.take_succ_cons, overwrite, inductionHypothesis, overwrite]
      · rw [overwrite_of_length_le (by omega), overwrite_of_length_le (by omega)]

namespace Patch

def Covers (p : Patch) (position : Nat) : Prop :=
  p.offset ≤ position ∧ position < p.offset + p.bytes.length

/-- The code holds the bytes of the patch already. -/
def HeldBy (p : Patch) (code : List UInt8) : Prop :=
  ∀ position, p.Covers position → code[position]? = p.bytes[position - p.offset]?

/-- The patch for code that stands `base` bytes further back. -/
def shift (base : Nat) (p : Patch) : Patch := { p with offset := base + p.offset }

@[simp]
theorem length_bytes (p : Patch) : p.bytes.length = p.size := length_littleEndian _ _

theorem fits_eq_true_iff {p : Patch} {length : Nat} :
    p.fits length = true ↔ p.size = 0 ∨ p.offset + p.size ≤ length := decide_eq_true_iff

@[simp]
theorem length_apply (code : List UInt8) (p : Patch) : (p.apply code).length = code.length :=
  length_overwrite code p.offset p.bytes

theorem getElem?_apply_of_not_covers {p : Patch} {position : Nat} (code : List UInt8)
    (outside : ¬ p.Covers position) : (p.apply code)[position]? = code[position]? := by
  unfold Covers at outside
  exact getElem?_overwrite_of_outside (by omega)

theorem getElem?_apply_of_covers {p : Patch} {position : Nat} {code : List UInt8}
    (covered : p.Covers position) (bounded : position < code.length) :
    (p.apply code)[position]? = p.bytes[position - p.offset]? :=
  getElem?_overwrite_of_inside covered.1 covered.2 bounded

theorem apply_eq_self_of_heldBy {p : Patch} {code : List UInt8} (held : p.HeldBy code) :
    p.apply code = code := by
  apply List.ext_getElem?
  intro position
  by_cases covered : p.Covers position
  · by_cases bounded : position < code.length
    · rw [getElem?_apply_of_covers covered bounded, held position covered]
    · rw [List.getElem?_eq_none (by simpa using bounded),
        List.getElem?_eq_none (by simpa using bounded)]
  · exact getElem?_apply_of_not_covers code covered

theorem field_eq_of_heldBy {p : Patch} {code : List UInt8} (held : p.HeldBy code) :
    (code.drop p.offset).take p.bytes.length = p.bytes := by
  apply List.ext_getElem?
  intro index
  by_cases inside : index < p.bytes.length
  · rw [List.getElem?_take_of_lt inside, List.getElem?_drop,
      held (p.offset + index) ⟨by omega, by omega⟩, Nat.add_sub_cancel_left]
  · rw [List.getElem?_eq_none (by simp only [List.length_take, List.length_drop]; omega),
      List.getElem?_eq_none (by omega)]

/-- A position that one of the patches covers. -/
def Covered (patches : List Patch) (position : Nat) : Prop :=
  ∃ p ∈ patches, p.Covers position

@[simp]
theorem length_foldl_apply (patches : List Patch) (code : List UInt8) :
    (patches.foldl Patch.apply code).length = code.length := by
  induction patches generalizing code with
  | nil => rfl
  | cons p rest inductionHypothesis => rw [List.foldl_cons, inductionHypothesis, length_apply]

theorem getElem?_foldl_apply_of_not_covered {patches : List Patch} {position : Nat}
    (code : List UInt8) (outside : ¬ Covered patches position) :
    (patches.foldl Patch.apply code)[position]? = code[position]? := by
  induction patches generalizing code with
  | nil => rfl
  | cons p rest inductionHypothesis =>
      have outsideRest : ¬ Covered rest position := fun ⟨q, member, covers⟩ =>
        outside ⟨q, List.mem_cons_of_mem p member, covers⟩
      have outsideFirst : ¬ p.Covers position := fun covers =>
        outside ⟨p, List.mem_cons_self, covers⟩
      rw [List.foldl_cons, inductionHypothesis _ outsideRest,
        getElem?_apply_of_not_covers code outsideFirst]

/-- Bytes that the patches cover do not matter before they are applied. -/
theorem foldl_apply_congr {patches : List Patch} {code other : List UInt8}
    (sameLength : code.length = other.length)
    (agree : ∀ position, Covered patches position ∨ code[position]? = other[position]?) :
    patches.foldl Patch.apply code = patches.foldl Patch.apply other := by
  induction patches generalizing code other with
  | nil =>
      apply List.ext_getElem?
      intro position
      rcases agree position with ⟨p, member, -⟩ | equal
      · simp at member
      · exact equal
  | cons p rest inductionHypothesis =>
      rw [List.foldl_cons, List.foldl_cons]
      apply inductionHypothesis (by rw [length_apply, length_apply, sameLength])
      intro position
      by_cases covered : p.Covers position
      · right
        by_cases bounded : position < code.length
        · rw [getElem?_apply_of_covers covered bounded,
            getElem?_apply_of_covers covered (sameLength ▸ bounded)]
        · rw [List.getElem?_eq_none (by simpa using bounded),
            List.getElem?_eq_none (by simpa [← sameLength] using bounded)]
      · rw [getElem?_apply_of_not_covers code covered, getElem?_apply_of_not_covers other covered]
        rcases agree position with ⟨q, member, covers⟩ | equal
        · rcases List.mem_cons.mp member with rfl | inRest
          · exact absurd covers covered
          · exact Or.inl ⟨q, inRest, covers⟩
        · exact Or.inr equal

theorem foldl_apply_eq_self {patches : List Patch} {code : List UInt8}
    (held : ∀ p ∈ patches, p.HeldBy code) : patches.foldl Patch.apply code = code := by
  induction patches with
  | nil => rfl
  | cons p rest inductionHypothesis =>
      rw [List.foldl_cons, apply_eq_self_of_heldBy (held p List.mem_cons_self)]
      exact inductionHypothesis fun q member => held q (List.mem_cons_of_mem p member)

/-- Patches whose bytes `target` holds turn code that differs only where they cover it into
`target`. -/
theorem foldl_apply_eq_target {patches : List Patch} {code target : List UInt8}
    (sameLength : code.length = target.length) (held : ∀ p ∈ patches, p.HeldBy target)
    (agree : ∀ position, Covered patches position ∨ code[position]? = target[position]?) :
    patches.foldl Patch.apply code = target := by
  rw [foldl_apply_congr sameLength agree, foldl_apply_eq_self held]

/-- No position is covered twice. -/
def Disjoint (p q : Patch) : Prop := ∀ position, p.Covers position → ¬ q.Covers position

theorem heldBy_apply {p : Patch} {code : List UInt8}
    (within : p.offset + p.bytes.length ≤ code.length) : p.HeldBy (p.apply code) :=
  fun _ covered => getElem?_apply_of_covers covered (Nat.lt_of_lt_of_le covered.2 within)

/-- Patches that do not overlap are all held in the end. -/
theorem heldBy_foldl_apply {patches : List Patch} {code : List UInt8}
    (disjoint : patches.Pairwise Disjoint)
    (within : ∀ p ∈ patches, p.offset + p.bytes.length ≤ code.length) :
    ∀ p ∈ patches, p.HeldBy (patches.foldl Patch.apply code) := by
  induction patches generalizing code with
  | nil => simp
  | cons first rest inductionHypothesis =>
      rw [List.pairwise_cons] at disjoint
      intro p member
      rw [List.foldl_cons]
      rcases List.mem_cons.mp member with rfl | inRest
      · intro position covered
        have untouched : ¬ Covered rest position := fun ⟨q, inRest, covers⟩ =>
          disjoint.1 q inRest position covered covers
        rw [getElem?_foldl_apply_of_not_covered _ untouched]
        exact heldBy_apply (within p member) position covered
      · apply inductionHypothesis disjoint.2 _ p inRest
        intro q qInRest
        rw [length_apply]
        exact within q (List.mem_cons_of_mem first qInRest)

theorem foldl_apply_append_left {patches : List Patch} {front back : List UInt8}
    (within : ∀ p ∈ patches, p.offset + p.bytes.length ≤ front.length) :
    patches.foldl Patch.apply (front ++ back) = patches.foldl Patch.apply front ++ back := by
  induction patches generalizing front with
  | nil => rfl
  | cons p rest inductionHypothesis =>
      have first : p.apply (front ++ back) = p.apply front ++ back :=
        overwrite_append_left (within p List.mem_cons_self)
      rw [List.foldl_cons, List.foldl_cons, first]
      apply inductionHypothesis
      intro q member
      rw [length_apply]
      exact within q (List.mem_cons_of_mem p member)

theorem foldl_apply_append_right (patches : List Patch) (front back : List UInt8) :
    (patches.map (shift front.length)).foldl Patch.apply (front ++ back) =
      front ++ patches.foldl Patch.apply back := by
  induction patches generalizing back with
  | nil => rfl
  | cons p rest inductionHypothesis =>
      have first : (p.shift front.length).apply (front ++ back) = front ++ p.apply back :=
        overwrite_append_right front back p.bytes p.offset
      rw [List.map_cons, List.foldl_cons, List.foldl_cons, first, inductionHypothesis]

/-! ### Patches that run over the end -/

theorem apply_clip (code : List UInt8) (p : Patch) :
    (p.clip code.length).apply code = p.apply code := by
  rw [apply, apply, ← overwrite_take code p.bytes, bytes, bytes, clip, take_littleEndian]

theorem applyAll_eq_ok_iff {patches : List Patch} {code result : List UInt8} :
    applyAll code patches = .ok result ↔
      (∀ p ∈ patches, p.fits code.length) ∧ result = patches.foldl apply code := by
  induction patches generalizing code with
  | nil =>
      rw [applyAll, Except.ok.injEq, List.foldl_nil]
      exact ⟨fun same => ⟨by simp, same.symm⟩, fun ⟨_, same⟩ => same.symm⟩
  | cons p rest inductionHypothesis =>
      rw [applyAll, List.forall_mem_cons, List.foldl_cons]
      by_cases fits : p.fits code.length = true
      · rw [if_pos fits, inductionHypothesis, length_apply]
        simp [fits]
      · rw [if_neg fits]
        simp [fits]

/-- When a patch runs over the end, those before it have been applied, and as much of it as there is
room for. -/
theorem applyAll_eq_error_iff {patches : List Patch} {code left : List UInt8} :
    applyAll code patches = .error left ↔
      ∃ before p after, patches = before ++ p :: after ∧ (∀ q ∈ before, q.fits code.length) ∧
        p.fits code.length = false ∧ left = (before ++ [p]).foldl apply code := by
  induction patches generalizing code with
  | nil => simp [applyAll]
  | cons first rest inductionHypothesis =>
      rw [applyAll]
      by_cases fits : first.fits code.length = true
      · rw [if_pos fits, inductionHypothesis, length_apply]
        constructor
        · rintro ⟨before, p, after, rfl, fit, overruns, rfl⟩
          exact ⟨first :: before, p, after, rfl, List.forall_mem_cons.mpr ⟨fits, fit⟩,
            overruns, rfl⟩
        · rintro ⟨before, p, after, same, fit, overruns, rfl⟩
          cases before with
          | nil =>
              obtain ⟨rfl, rfl⟩ := List.cons.inj same
              exact absurd fits (by simp [overruns])
          | cons q before =>
              obtain ⟨rfl, rfl⟩ := List.cons.inj same
              exact ⟨before, p, after, rfl, (List.forall_mem_cons.mp fit).2, overruns, rfl⟩
      · rw [if_neg fits, Except.error.injEq, apply_clip]
        constructor
        · rintro rfl
          exact ⟨[], first, rest, rfl, by simp, by simpa using fits, rfl⟩
        · rintro ⟨before, p, after, same, fit, overruns, rfl⟩
          cases before with
          | nil =>
              obtain ⟨rfl, rfl⟩ := List.cons.inj same
              rfl
          | cons q before =>
              obtain ⟨rfl, rfl⟩ := List.cons.inj same
              exact absurd (fit first List.mem_cons_self) fits

end Patch

end Asm64
