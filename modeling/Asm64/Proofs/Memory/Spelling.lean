import Asm64.Proofs.Memory.Parts

/-!
# Spellings of memory operands

An operand that was read is printed in a way that is read as the same operand.  The displacement
can be written in two ways, in front of the brackets or with its sign after the base.  In both, the
text after the base is read alike, and what is left is the displacement itself, which is read the
same way in both places.
-/

namespace Asm64

namespace Memory

/-! ### Printing -/

theorem isNameByte_decimal (n : Nat) : ∀ b ∈ Text.decimal n, Text.isNameByte b = true :=
  Integer.isNameByte_of_spells (Integer.spells_decimal n)

theorem isSolid_decimal (n : Nat) : ∀ b ∈ Text.decimal n, Text.isSolid b = true :=
  fun b member => Text.isSolid_of_isNameByte (isNameByte_decimal n b member)

theorem isSolid_of_isNameByte_or_minus {b : UInt8} (inNumber : Text.isNameByte b = true ∨ b = 45) :
    Text.isSolid b = true ∧ b ≠ 91 := by
  rcases inNumber with inName | rfl
  · exact ⟨Text.isSolid_of_isNameByte inName, (plain_of_isNameByte inName).2.1⟩
  · decide

theorem parseScale_decimal (scale : Scale) :
    parseScale (Text.decimal scale.factor) = .ok scale := by
  have literal : Integer.parse? (Text.decimal scale.factor) =
      some ⟨false, UInt64.ofNat scale.factor⟩ := by
    refine Integer.parse?_eq_some_iff.mpr ⟨false, ?_, by simp⟩
    rw [show (UInt64.ofNat scale.factor).toNat = scale.factor by cases scale <;> rfl]
    exact Integer.spells_decimal _
  rw [parseScale, literal]
  cases scale <;> rfl

theorem isSign_of_isNameByte {b : UInt8} (inName : Text.isNameByte b = true) :
    (!isSign b) = true := by
  rw [Bool.not_eq_true', isSign, decide_eq_false_iff_not]
  rintro (rfl | rfl) <;> exact absurd inName (by decide)

theorem splitOffset?_of_isNameByte {t : Text} (named : ∀ b ∈ t, Text.isNameByte b = true) :
    splitOffset? t = none := by
  have passed : t.dropWhile (fun b => !isSign b) = [] :=
    List.dropWhile_eq_nil_iff.mpr fun b member => isSign_of_isNameByte (named b member)
  unfold splitOffset?
  rw [passed]
  cases t.takeWhile (fun b => !isSign b) <;> rfl

theorem parseRegister_name (r : Register) : parseRegister r.name = .ok r := by
  rw [parseRegister, Register.parse, Register.ofName?_name]
  rfl

theorem parseIndex_spaced (register : Register) (scale : Scale) :
    parseIndex [32 :: register.name, 32 :: Text.decimal scale.factor] =
      .ok (some ⟨register, scale⟩) := by
  have name := isBaseText_of_isIdentifier (Register.isIdentifier_name register)
  rw [parseIndex, Text.trim_space, Text.trim_space, name.trim_eq,
    Text.trim_of_solid (isSolid_decimal _), parseRegister_name, parseScale_decimal]
  rfl

theorem split_spaced {t : Text} (named : ∀ b ∈ t, Text.isNameByte b = true) :
    Text.split 44 (32 :: t) = [32 :: t] := by
  apply Text.split_of_not_mem
  rintro (_ | ⟨_, member⟩)
  exact absurd (named 44 member) (by decide)

namespace render

variable {m : Memory}

theorem isNameByte_displacementText (written : m.displacement.Written) :
    ∀ b ∈ displacementText m, Text.isNameByte b = true ∨ b = 45 := by
  unfold displacementText
  cases displacement : m.displacement with
  | constant value =>
      dsimp only
      split
      · simp
      · unfold Text.decimalInt
        split
        · simpa using fun b member => Or.inl (isNameByte_decimal _ b member)
        · exact fun b member => .inl (isNameByte_decimal _ b member)
  | label name =>
      rw [displacement] at written
      exact fun b member => .inl (Text.isNameByte_of_isIdentifier written.1 b member)

theorem parseFront_displacementText (written : m.displacement.Written) :
    ∃ outer, parseFront (displacementText m) = .ok outer ∧
      outer.getD (.constant 0) = m.displacement := by
  unfold displacementText
  cases displacement : m.displacement with
  | constant value =>
      rw [displacement] at written
      obtain ⟨low, high⟩ := written
      have literal := Integer.parse?_decimalInt low high
      dsimp only
      split
      · rename_i zero
        exact ⟨none, rfl, by rw [zero]; rfl⟩
      · have nonempty : Text.decimalInt value ≠ [] := by
          intro empty
          rw [empty] at literal
          cases literal
        refine ⟨some (.constant value), (parseFront_eq_ok_iff nonempty).mpr ⟨_, ?_, rfl⟩, rfl⟩
        exact parseDisplacement_eq_ok_iff.mpr
          (.inl ⟨_, _, literal, Integer.toInt?_ofInt low high, rfl⟩)
  | label name =>
      rw [displacement] at written
      obtain ⟨identifier, unnamed⟩ := written
      refine ⟨some (.label name),
        (parseFront_eq_ok_iff (Text.ne_nil_of_isIdentifier identifier)).mpr ⟨_, ?_, rfl⟩, rfl⟩
      exact parseDisplacement_eq_ok_iff.mpr
        (.inr ⟨Integer.parse?_of_isIdentifier identifier, unnamed, identifier, rfl⟩)

theorem parseSize_sizeText :
    93 ∉ sizeText m ∧ Text.trim (Text.trimEnd (sizeText m)) = sizeText m ∧
      parseSize (sizeText m) = .ok m.size := by
  unfold sizeText
  cases m.size with
  | none => exact ⟨List.not_mem_nil, rfl, rfl⟩
  | some size => cases size <;> decide

theorem hasRest_indexText : HasRest (Text.trimEnd (indexText m)) (sizeText m) m := by
  unfold indexText
  cases index : m.index with
  | none =>
      refine ⟨List.forall_mem_nil _, parseSize_sizeText.2.2, [], rfl, by decide, ?_⟩
      rw [index]
      rfl
  | some scaled =>
      obtain ⟨register, scale⟩ := scaled
      have name := Text.isNameByte_of_isIdentifier (Register.isIdentifier_name register)
      have factor := isNameByte_decimal scale.factor
      have nonempty : Text.decimal scale.factor ≠ [] := (Integer.isNumeral_decimal _).1
      have spelled : ascii ", " ++ register.name ++ ascii ", " ++ Text.decimal scale.factor =
          44 :: (32 :: register.name ++ 44 :: (32 :: Text.decimal scale.factor)) := by
        simp [ascii]
      have pieces : Text.split 44
          (44 :: (32 :: register.name ++ 44 :: (32 :: Text.decimal scale.factor))) =
          [[], 32 :: register.name, 32 :: Text.decimal scale.factor] := by
        rw [Text.split_cons_separator, Text.split_append, split_spaced name, split_spaced factor]
        rfl
      dsimp only
      rw [Text.trimEnd_append_eq_self _ nonempty (isSolid_decimal _), spelled]
      refine ⟨?_, parseSize_sizeText.2.2, _, pieces, le_rfl, ?_⟩
      · have plain (b : UInt8) (inName : Text.isNameByte b = true) := (plain_of_isNameByte inName).2
        simp only [List.forall_mem_cons, List.forall_mem_append, List.cons_append]
        exact ⟨by decide, by decide, fun b member => plain b (name b member), by decide, by decide,
          fun b member => plain b (factor b member)⟩
      · rw [index, parseIndex_spaced]

end render

theorem parse_render {m : Memory} (written : m.Written) : parse m.render = .ok m := by
  obtain ⟨written, headed⟩ := written
  have plain : ∀ b ∈ render.displacementText m, Text.isSolid b = true ∧ b ≠ 91 :=
    fun b member => isSolid_of_isNameByte_or_minus
      (render.isNameByte_displacementText written b member)
  obtain ⟨closed, trimmed, size⟩ := render.parseSize_sizeText (m := m)
  obtain ⟨outer, readFront, value⟩ := render.parseFront_displacementText written
  have rendered : m.render = render.displacementText m ++
      91 :: (render.baseText m ++ render.indexText m ++ 93 :: render.sizeText m) := by
    simp [render, ascii]
  rw [rendered]
  cases base : m.base with
  | none =>
      rw [parse_eq_ok_iff_of_plain plain closed, trimmed]
      obtain ⟨_, _, _, _⟩ := m
      dsimp only at base value
      obtain rfl := headed base
      subst base value
      exact ⟨List.forall_mem_nil _, size, outer, readFront, .nothing⟩
  | some register =>
      have identifier := Register.isIdentifier_name register
      have separated : ∀ b ∈ (render.indexText m).head?, b = 44 ∨ b = 93 := by
        unfold render.indexText
        cases m.index <;> simp [ascii]
      rw [show render.baseText m = register.name by rw [render.baseText, base],
        (isBaseText_of_isIdentifier identifier).parse_eq_ok_iff plain separated closed, trimmed]
      refine ⟨render.hasRest_indexText, outer, register, readFront,
        parseBase_eq_ok_iff.mpr (.inl ?_), base⟩
      exact ⟨splitOffset?_of_isNameByte (Text.isNameByte_of_isIdentifier identifier),
        parseRegister_name register, value⟩

/-! ### Displacements in front of the brackets and after the base -/

def spelledInFront (d base : Text) (components : List Text) (size : Text) : Text :=
  d ++ ascii "[" ++ Text.join (ascii ", ") (base :: components) ++ ascii "]" ++ size

def spelledAfterBase (sign d base : Text) (components : List Text) (size : Text) : Text :=
  ascii "[" ++ Text.join (ascii ", ") ((base ++ sign ++ d) :: components) ++ ascii "]" ++ size

/-- However many components follow the base, and whatever follows the brackets, an operand is read
in two parts that do not depend on each other. -/
theorem parse_bracketed_iff (components : List Text) (size : Text) :
    ∃ rest suffix, ∀ (front t : Text) (m : Memory),
      (∀ b ∈ front, Text.isSolid b = true ∧ b ≠ 91) → IsBaseText t →
      (parse (front ++ ascii "[" ++ Text.join (ascii ", ") (t :: components) ++ ascii "]" ++ size) =
          .ok m ↔
        HasRest rest suffix m ∧ ∃ outer base, parseFront front = .ok outer ∧
          parseBase outer t = .ok (base, m.displacement) ∧ m.base = some base) := by
  -- The suffix may hold brackets, so the last one need not be the one that is written here.
  obtain ⟨rest, back, last, closed⟩ := Text.exists_last_of_mem
    (show (93 : UInt8) ∈ components.flatMap (ascii ", " ++ ·) ++ 93 :: size by simp)
  have separated : ∀ b ∈ rest.head?, b = 44 ∨ b = 93 := by
    intro b first
    obtain ⟨others, rfl⟩ := List.head?_eq_some_iff.mp first
    cases components with
    | nil => exact .inr (List.cons.inj last).1.symm
    | cons _ _ => exact .inl (List.cons.inj last).1.symm
  refine ⟨Text.trimEnd rest, Text.trim (Text.trimEnd back), fun front t m plain isBaseText => ?_⟩
  have spelled :
      front ++ ascii "[" ++ Text.join (ascii ", ") (t :: components) ++ ascii "]" ++ size =
        front ++ 91 :: (t ++ rest ++ 93 :: back) := by
    rw [List.append_assoc t, ← last, Text.join_cons]
    simp [ascii]
  rw [spelled, isBaseText.parse_eq_ok_iff plain separated closed]

section

variable {sign : UInt8} (signed : isSign sign = true) {base d : Text}
  (identifier : Text.isIdentifier base = true) (named : ∀ b ∈ d, Text.isNameByte b = true)

include signed identifier named

theorem splitOffset?_append :
    splitOffset? (base ++ 32 :: sign :: 32 :: d) =
      some (base, if sign = 45 then 45 :: d else d) := by
  have unsigned : ∀ b ∈ base ++ [32], (!isSign b) = true := by
    intro b member
    rcases List.mem_append.mp member with inBase | inSpace
    · exact isSign_of_isNameByte (Text.isNameByte_of_isIdentifier identifier b inBase)
    · rw [List.mem_singleton.mp inSpace]
      decide
  have cut : base ++ 32 :: sign :: 32 :: d = (base ++ [32]) ++ sign :: 32 :: d := by simp
  have trimmedBase : Text.trim (base ++ [32]) = base := by
    rw [(isBaseText_of_isIdentifier identifier).trim_append]
    exact List.append_nil base
  have trimmedOffset : Text.trim (32 :: d) = d := by
    rw [Text.trim_space]
    exact Text.trim_of_solid fun b member => Text.isSolid_of_isNameByte (named b member)
  obtain ⟨first, others, whole⟩ := List.exists_cons_of_ne_nil
    (show base ++ [32] ≠ [] by simp)
  unfold splitOffset?
  rw [cut, List.takeWhile_append_of_pos unsigned, List.dropWhile_append_of_pos unsigned]
  simp only [List.takeWhile_cons, List.dropWhile_cons, signed, Bool.not_true, Bool.false_eq_true,
    if_false, List.append_nil]
  rw [whole]
  dsimp only
  rw [← whole, trimmedBase, trimmedOffset]

theorem isBaseText_offset (nonempty : d ≠ []) : IsBaseText (base ++ 32 :: sign :: 32 :: d) := by
  have front := isBaseText_of_isIdentifier identifier
  have solid (b : UInt8) (member : b ∈ d) := Text.isSolid_of_isNameByte (named b member)
  refine ⟨by simp, fun b first => ?_, fun b last => ?_, fun b member => ?_⟩
  · rw [List.head?_append_of_ne_nil _ front.nonempty] at first
    exact front.starts b first
  · rw [show base ++ 32 :: sign :: 32 :: d = (base ++ [32, sign, 32]) ++ d by simp,
      List.getLast?_append_of_ne_nil _ nonempty] at last
    exact solid b (List.mem_of_mem_getLast? last)
  · simp only [List.mem_append, List.mem_cons] at member
    rcases member with inBase | rfl | rfl | rfl | inOffset
    · exact front.plain b inBase
    · decide
    · refine ⟨?_, ?_, ?_⟩ <;>
      · rintro rfl
        exact absurd signed (by decide)
    · decide
    · exact plain_of_isNameByte (named b inOffset)

theorem parse_spelled_iff (nonempty : d ≠ []) (components : List Text) (size : Text) (m : Memory) :
    parse (spelledInFront (if sign = 45 then 45 :: d else d) base components size) = .ok m ↔
      parse (spelledAfterBase [32, sign, 32] d base components size) = .ok m := by
  have nonemptyFront : (if sign = 45 then 45 :: d else d) ≠ [] := by split <;> simp [nonempty]
  have plain : ∀ b ∈ (if sign = 45 then 45 :: d else d), Text.isSolid b = true ∧ b ≠ 91 := by
    intro b member
    apply isSolid_of_isNameByte_or_minus
    split at member
    · exact (List.mem_cons.mp member).symm.imp_left (named b)
    · exact .inl (named b member)
  have noOffset := splitOffset?_of_isNameByte (Text.isNameByte_of_isIdentifier identifier)
  have offset := splitOffset?_append signed identifier named
  obtain ⟨rest, suffix, bracketed⟩ := parse_bracketed_iff components size
  have inFront := bracketed _ base m plain (isBaseText_of_isIdentifier identifier)
  have afterBase := bracketed [] _ m (List.forall_mem_nil _)
    (isBaseText_offset signed identifier named nonempty)
  rw [List.nil_append] at afterBase
  rw [spelledInFront, inFront, spelledAfterBase, List.append_assoc base, List.cons_append,
    List.cons_append, List.cons_append, List.nil_append, afterBase]
  -- What follows the base is the same text in both, so only the displacement is left to compare.
  refine and_congr_right fun _ => ?_
  simp only [parseFront_eq_ok_iff nonemptyFront, parseBase_eq_ok_iff, noOffset, offset]
  constructor
  · rintro ⟨_, r, ⟨_, read, rfl⟩, ⟨-, readBase, rfl⟩ | ⟨_, _, impossible, -⟩, hasBase⟩
    · exact ⟨none, r, rfl,
        .inr ⟨_, _, rfl, rfl, parseDisplacement_inside_iff.mpr read, readBase⟩, hasBase⟩
    · cases impossible
  · rintro ⟨_, r, -, ⟨impossible, -⟩ | ⟨_, _, same, -, read, readBase⟩, hasBase⟩
    · cases impossible
    · cases same
      exact ⟨_, r, ⟨_, parseDisplacement_inside_iff.mp read, rfl⟩, .inl ⟨trivial, readBase, rfl⟩,
        hasBase⟩

end

/-- An operand that was read is read again after it has been printed, and the operands that can be
read are those that can be written.  And with a register for its base, any components after it and
any suffix, it does not matter where the displacement stands: a literal without sign or a label can
be added to the base, and a literal subtracted from it. -/
theorem operands_survive_printing_and_moving :
    (∀ (t : Text) (m : Memory), parse t = .ok m → parse m.render = .ok m) ∧
    (∀ m : Memory, (∃ t, parse t = .ok m) ↔ m.Written) ∧
    (∀ (base d : Text) (components : List Text) (size : Text) (m : Memory),
      Register.isName base = true →
      (∃ n, Integer.Spells false n d) ∨ Text.isIdentifier d = true →
      (parse (spelledInFront d base components size) = .ok m ↔
        parse (spelledAfterBase (ascii " + ") d base components size) = .ok m)) ∧
    ∀ (base d : Text) (components : List Text) (size : Text) (m : Memory),
      Register.isName base = true → (∃ n, Integer.Spells false n d) →
      (parse (spelledInFront (ascii "-" ++ d) base components size) = .ok m ↔
        parse (spelledAfterBase (ascii " - ") d base components size) = .ok m) := by
  have literal {d : Text} (spelled : ∃ n, Integer.Spells false n d) :
      d ≠ [] ∧ ∀ b ∈ d, Text.isNameByte b = true := by
    obtain ⟨n, spells⟩ := spelled
    exact ⟨Integer.ne_nil_of_spells spells, Integer.isNameByte_of_spells spells⟩
  refine ⟨fun t m parsed => parse_render (written_of_parse parsed), fun m => ⟨?_, ?_⟩,
    fun base d components size m isName written => ?_,
    fun base d components size m isName written => ?_⟩
  · rintro ⟨t, parsed⟩
    exact written_of_parse parsed
  · intro written
    exact ⟨m.render, parse_render written⟩
  · obtain ⟨nonempty, named⟩ : d ≠ [] ∧ ∀ b ∈ d, Text.isNameByte b = true := by
      rcases written with spelled | label
      · exact literal spelled
      · exact ⟨Text.ne_nil_of_isIdentifier label, Text.isNameByte_of_isIdentifier label⟩
    have plus : isSign 43 = true := by decide
    have agree := parse_spelled_iff plus (Register.isIdentifier_of_isName isName) named nonempty
      components size m
    rwa [if_neg (by decide)] at agree
  · obtain ⟨nonempty, named⟩ := literal written
    have minus : isSign 45 = true := by decide
    have agree := parse_spelled_iff minus (Register.isIdentifier_of_isName isName) named nonempty
      components size m
    rwa [if_pos rfl] at agree

/-- An operand with all parts, whose index has an alias for its name; its displacement subtracted
in front of the brackets; and a label that is added to the base. -/
theorem operands_survive_printing_and_moving_sample :
    (∃ m, parse (ascii "[rbp - 0x10, r8l, 04]q") = .ok m ∧ parse m.render = .ok m ∧
      parse (ascii "-0x10[rbp, r8l, 04]q") = .ok m) ∧
    ∃ m, parse (ascii "table[rbx, rcx]") = .ok m ∧ parse (ascii "[rbx + table, rcx]") = .ok m := by
  obtain ⟨printed, -, added, subtracted⟩ := operands_survive_printing_and_moving
  have sixteen : Integer.Spells false 16 (ascii "0x10") :=
    Integer.readMagnitude?_eq_some_iff.mp (show _ = some 16 by decide)
  have indexed : parse (ascii "[rbp - 0x10, r8l, 04]q") =
      .ok ⟨some (.general .qword 5), some ⟨.general .byte 8, .four⟩, .constant (-16),
        some .qword⟩ := by decide +kernel
  have labelled : parse (ascii "table[rbx, rcx]") =
      .ok ⟨some (.general .qword 3), some ⟨.general .qword 1, .one⟩, .label (ascii "table"),
        none⟩ := by decide +kernel
  refine ⟨⟨_, indexed, printed _ _ indexed, ?_⟩, _, labelled, ?_⟩
  · exact (subtracted (ascii "rbp") (ascii "0x10") [ascii "r8l", ascii "04"] (ascii "q") _
      (by decide +kernel) ⟨16, sixteen⟩).mpr indexed
  · exact (added (ascii "rbx") (ascii "table") [ascii "rcx"] [] _ (by decide +kernel)
      (.inr (by decide))).mp labelled

end Memory

end Asm64
