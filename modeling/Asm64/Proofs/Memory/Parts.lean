import Asm64.Memory.Parser
import Asm64.Proofs.Integer.Literal
import Asm64.Proofs.Text.Cutting

/-!
# The parts of memory operands

A memory operand is read in three parts: what stands in front of the brackets, between them and
after them.  `HasParts` says what has to be read in each of them for a given operand, and a text is
read as an operand exactly if its parts are read so.  Where the brackets hold a base, the text after
it is read apart from the base and the displacement: `HasRest` says what has to be read there.
-/

namespace Asm64

/-! ### Names of registers -/

namespace Register

theorem ofName?_name (r : Register) : ofName? r.name = some r := by
  have listed : ∀ s ∈ all, ofName? s.name = some s := by decide +kernel
  apply listed
  cases r with
  | general width number => cases width <;> simp [all]
  | highByte of => simp [all]
  | instructionPointer => simp [all]

theorem isIdentifier_of_isName {t : Text} (named : isName t = true) :
    Text.isIdentifier t = true := by
  have listed : ∀ entry ∈ namesAndAliases, Text.isIdentifier entry.1 = true := by decide +kernel
  rw [isName, ofName?, Option.isSome_map, List.find?_isSome] at named
  obtain ⟨entry, member, same⟩ := named
  rw [beq_iff_eq] at same
  rw [← same]
  exact listed entry member

theorem isIdentifier_name (r : Register) : Text.isIdentifier r.name = true :=
  isIdentifier_of_isName (by rw [isName, ofName?_name, Option.isSome_some])

end Register

def Displacement.Written : Displacement → Prop
  | constant value => -2 ^ 63 ≤ value ∧ value < 2 ^ 63
  | label name => Text.isIdentifier name = true ∧ Register.isName name = false

structure Memory.Written (m : Memory) : Prop where
  displacement : m.displacement.Written
  headed : m.base = none → m.index = none

namespace Memory

/-! ### Displacements -/

/-- A displacement is a signed 64-bit number or the name of a label, wherever it stands. -/
theorem parseDisplacement_eq_ok_iff {inside : Bool} {t : Text} {d : Displacement} :
    parseDisplacement inside t = .ok d ↔
      (∃ i v, Integer.parse? t = some i ∧ i.toInt? = some v ∧ d = .constant v) ∨
      (Integer.parse? t = none ∧ Register.isName t = false ∧ Text.isIdentifier t = true ∧
        d = .label t) := by
  have empty : Integer.parse? [] = none := by decide
  have minus : Integer.parse? [45] = none := by decide
  have unnamed : Text.isIdentifier [] = false ∧ Text.isIdentifier [45] = false := by decide
  unfold parseDisplacement
  by_cases missing : t = [] ∨ t = [45]
  · rw [if_pos missing]
    rcases missing with rfl | rfl <;> simp [empty, minus, unnamed]
  · rw [if_neg missing]
    cases Integer.parse? t with
    | some i => cases signed : i.toInt? <;> simp [signed, @eq_comm _ _ d]
    | none =>
        cases Register.isName t <;> cases Text.isIdentifier t <;> cases inside <;>
          simp [@eq_comm _ _ d]

theorem parseDisplacement_inside_iff {t : Text} {d : Displacement} :
    parseDisplacement true t = .ok d ↔ parseDisplacement false t = .ok d := by
  rw [parseDisplacement_eq_ok_iff, parseDisplacement_eq_ok_iff]

def parseFront (front : Text) : Except Flaw (Option Displacement) :=
  if front = [] then pure none else some <$> parseDisplacement false front

theorem parseFront_eq_ok_iff {front : Text} (nonempty : front ≠ []) {outer : Option Displacement} :
    parseFront front = .ok outer ↔ ∃ d, parseDisplacement false front = .ok d ∧ outer = some d := by
  rw [parseFront, if_neg nonempty]
  cases parseDisplacement false front <;> simp [Functor.map, Except.map, eq_comm]

/-! ### Between the brackets -/

theorem parseBase_eq_ok_iff {outer : Option Displacement} {t : Text} {base : Register}
    {d : Displacement} :
    parseBase outer t = .ok (base, d) ↔
      (splitOffset? t = none ∧ parseRegister t = .ok base ∧ outer.getD (.constant 0) = d) ∨
      ∃ baseText offset, splitOffset? t = some (baseText, offset) ∧ outer = none ∧
        parseDisplacement true offset = .ok d ∧ parseRegister baseText = .ok base := by
  unfold parseBase
  cases splitOffset? t with
  | none =>
      simp only [bind_eq_ok_iff, pure_eq_ok_iff, Prod.mk.injEq]
      simp
  | some parts =>
      obtain ⟨baseText, offset⟩ := parts
      cases outer with
      | none =>
          simp only [bind_eq_ok_iff, pure_eq_ok_iff, Prod.mk.injEq]
          simp
      | some d => simp

/-- What is read between the brackets after a displacement that may stand in front of them. -/
inductive Components (outer : Option Displacement) : Text → Memory → Prop
  | nothing {size : Option Width} :
      Components outer [] ⟨none, none, outer.getD (.constant 0), size⟩
  | registers {inner baseText : Text} {rest : List Text} {base : Register} {d : Displacement}
      {index : Option ScaledIndex} {size : Option Width} (nonempty : inner ≠ [])
      (cut : Text.split 44 inner = baseText :: rest) (few : rest.length ≤ 2)
      (readBase : parseBase outer (Text.trim baseText) = .ok (base, d))
      (readIndex : parseIndex rest = .ok index) :
      Components outer inner ⟨some base, index, d, size⟩

/-- What is read in the three parts of an operand. -/
structure HasParts (front inner suffix : Text) (m : Memory) : Prop where
  unnested : ∀ b ∈ inner, b ≠ 91 ∧ b ≠ 93
  size : parseSize suffix = .ok m.size
  components : ∃ outer, parseFront front = .ok outer ∧ Components outer inner m

theorem parseParts_eq_ok_iff {front inner suffix : Text} {m : Memory} :
    parseParts front inner suffix = .ok m ↔ HasParts front inner suffix m := by
  unfold parseParts
  by_cases nested : (inner.any fun b => b = 91 ∨ b = 93) = true
  · rw [if_pos nested]
    constructor
    · intro parsed
      cases parsed
    · intro parts
      obtain ⟨b, member, bracket⟩ := List.any_eq_true.mp nested
      exact absurd (of_decide_eq_true bracket) (not_or.mpr (parts.unnested b member))
  · rw [if_neg nested]
    simp only [bind_eq_ok_iff, ite_bind_eq_ok_iff]
    have unnested : ∀ b ∈ inner, b ≠ 91 ∧ b ≠ 93 := by simpa using nested
    constructor
    · rintro ⟨size, readSize, outer, readFront, parsed⟩
      split at parsed
      · rename_i empty
        subst empty
        cases parsed
        exact ⟨unnested, readSize, outer, readFront, .nothing⟩
      · rename_i nonempty
        split at parsed
        · cases parsed
        · rename_i baseText rest cut
          split at parsed
          · cases parsed
          · rename_i few
            simp only [bind_eq_ok_iff, pure_eq_ok_iff] at parsed
            obtain ⟨⟨base, d⟩, readBase, index, readIndex, rfl⟩ := parsed
            exact ⟨unnested, readSize, outer, readFront,
              .registers nonempty cut (Nat.le_of_not_lt few) readBase readIndex⟩
    · rintro ⟨-, readSize, outer, readFront, components⟩
      refine ⟨_, readSize, outer, readFront, ?_⟩
      cases components with
      | nothing => rw [if_pos rfl, pure_eq_ok_iff]
      | registers nonempty cut few readBase readIndex =>
          rw [if_neg nonempty, cut]
          dsimp only
          rw [if_neg (Nat.not_lt_of_le few), readBase, readIndex]
          rfl

/-! ### The brackets -/

theorem parse_eq_ok_iff {front inner back : Text} {m : Memory} (opened : 91 ∉ front)
    (closed : 93 ∉ back) :
    parse (front ++ 91 :: (inner ++ 93 :: back)) = .ok m ↔
      HasParts (Text.trim (Text.trimStart front)) (Text.trim inner)
        (Text.trim (Text.trimEnd back)) m := by
  have bracket : Text.isSolid 91 = true := by decide
  have otherBracket : Text.isSolid 93 = true := by decide
  have trimmed : Text.trim (front ++ 91 :: (inner ++ 93 :: back)) =
      Text.trimStart front ++ 91 :: (inner ++ 93 :: Text.trimEnd back) := by
    rw [Text.trim_append bracket, Text.trimEnd_append otherBracket]
  have cut : splitBrackets? (Text.trimStart front ++ 91 :: (inner ++ 93 :: Text.trimEnd back)) =
      some (Text.trimStart front, inner, Text.trimEnd back) := by
    rw [splitBrackets?, Text.cut_append (Text.not_mem_trimStart opened)]
    dsimp only
    rw [Text.cutLast_append (Text.not_mem_trimEnd closed)]
  rw [parse, mapError_eq_ok_iff, trimmed, parseTrimmed, cut]
  exact parseParts_eq_ok_iff

/-- A displacement has no white space around it, and no bracket in it. -/
theorem parse_eq_ok_iff_of_plain {front inner back : Text} {m : Memory}
    (plain : ∀ b ∈ front, Text.isSolid b = true ∧ b ≠ 91) (closed : 93 ∉ back) :
    parse (front ++ 91 :: (inner ++ 93 :: back)) = .ok m ↔
      HasParts front (Text.trim inner) (Text.trim (Text.trimEnd back)) m := by
  have solid : ∀ b ∈ front, Text.isSolid b = true := fun b member => (plain b member).1
  rw [parse_eq_ok_iff (fun member => (plain 91 member).2 rfl) closed,
    Text.trimStart_of_solid solid, Text.trim_of_solid solid]

/-! ### What can be read -/

theorem written_zero : (Displacement.constant 0).Written := by
  constructor <;> decide

theorem written_of_parseDisplacement {inside : Bool} {t : Text} {d : Displacement}
    (parsed : parseDisplacement inside t = .ok d) : d.Written := by
  rcases parseDisplacement_eq_ok_iff.mp parsed with
    ⟨i, value, -, signed, rfl⟩ | ⟨-, unnamed, identifier, rfl⟩
  · exact Integer.range_of_toInt? signed
  · exact ⟨identifier, unnamed⟩

theorem written_getD_of_parseFront {front : Text} {outer : Option Displacement}
    (parsed : parseFront front = .ok outer) : (outer.getD (.constant 0)).Written := by
  by_cases empty : front = []
  · rw [parseFront, if_pos empty, pure_eq_ok_iff] at parsed
    subst parsed
    exact written_zero
  · obtain ⟨d, read, rfl⟩ := (parseFront_eq_ok_iff empty).mp parsed
    exact written_of_parseDisplacement read

theorem written_of_hasParts {front inner suffix : Text} {m : Memory}
    (parts : HasParts front inner suffix m) : m.Written := by
  obtain ⟨-, -, outer, readFront, components⟩ := parts
  have written := written_getD_of_parseFront readFront
  cases components with
  | nothing => exact ⟨written, fun _ => rfl⟩
  | registers _ _ _ readBase =>
      refine ⟨?_, by simp⟩
      rcases parseBase_eq_ok_iff.mp readBase with ⟨-, -, rfl⟩ | ⟨_, _, -, -, read, -⟩
      · exact written
      · exact written_of_parseDisplacement read

theorem written_of_parse {t : Text} {m : Memory} (parsed : parse t = .ok m) : m.Written := by
  rw [parse, mapError_eq_ok_iff, parseTrimmed] at parsed
  split at parsed
  · cases parsed
  · exact written_of_hasParts (parseParts_eq_ok_iff.mp parsed)

/-! ### The base and the text after it -/

/-- What has to be read of the text from the end of the base to the last bracket, and behind it. -/
structure HasRest (rest suffix : Text) (m : Memory) : Prop where
  unnested : ∀ b ∈ rest, b ≠ 91 ∧ b ≠ 93
  size : parseSize suffix = .ok m.size
  index : ∃ pieces, Text.split 44 rest = [] :: pieces ∧ pieces.length ≤ 2 ∧
    parseIndex pieces = .ok m.index

theorem eq_nil_of_split_trimEnd {rest piece : Text} {pieces : List Text}
    (separated : ∀ b ∈ rest.head?, b = 44 ∨ b = 93)
    (unnested : ∀ b ∈ Text.trimEnd rest, b ≠ 91 ∧ b ≠ 93)
    (cut : Text.split 44 (Text.trimEnd rest) = piece :: pieces) : piece = [] := by
  cases rest with
  | nil =>
      cases cut
      rfl
  | cons first rest =>
      rcases separated first rfl with rfl | rfl
      · rw [show Text.trimEnd (44 :: rest) = 44 :: Text.trimEnd rest from
          Text.trimEnd_append (by decide) [] rest, Text.split_cons_separator] at cut
        cases cut
        rfl
      · rw [show Text.trimEnd (93 :: rest) = 93 :: Text.trimEnd rest from
          Text.trimEnd_append (by decide) [] rest] at unnested
        exact absurd rfl (unnested 93 List.mem_cons_self).2

/-- A base with its offset, if it has one, can be told from the text after it. -/
structure IsBaseText (t : Text) : Prop where
  nonempty : t ≠ []
  starts : ∀ b ∈ t.head?, Text.isSolid b = true
  ends : ∀ b ∈ t.getLast?, Text.isSolid b = true
  plain : ∀ b ∈ t, b ≠ 44 ∧ b ≠ 91 ∧ b ≠ 93

namespace IsBaseText

variable {t : Text} (isBaseText : IsBaseText t)

include isBaseText

theorem trim_eq : Text.trim t = t := Text.trim_eq_self isBaseText.starts isBaseText.ends

theorem trim_append (rest : Text) : Text.trim (t ++ rest) = t ++ Text.trimEnd rest := by
  obtain ⟨nonempty, starts, ends, -⟩ := isBaseText
  obtain ⟨front, last, rfl⟩ := (List.eq_nil_or_concat t).resolve_left nonempty
  rw [List.concat_eq_append] at *
  have solid : Text.isSolid last = true := ends last (by simp)
  rw [List.append_assoc, List.singleton_append, Text.trim_append solid,
    ← Text.trimStart_append solid, Text.trimStart_eq_self]
  · simp
  · cases front <;> simpa using starts

theorem hasParts_append_iff {front rest suffix : Text} {m : Memory}
    (separated : ∀ b ∈ rest.head?, b = 44 ∨ b = 93) :
    HasParts front (Text.trim (t ++ rest)) suffix m ↔
      HasRest (Text.trimEnd rest) suffix m ∧
        ∃ outer base, parseFront front = .ok outer ∧
          parseBase outer t = .ok (base, m.displacement) ∧ m.base = some base := by
  have absent : (44 : UInt8) ∉ t := fun member => (isBaseText.plain 44 member).1 rfl
  have nonempty (rest : Text) : t ++ rest ≠ [] := by simp [isBaseText.nonempty]
  rw [isBaseText.trim_append]
  constructor
  · rintro ⟨unnested, size, outer, readFront, components⟩
    rw [List.forall_mem_append] at unnested
    generalize whole : t ++ Text.trimEnd rest = inner at components
    cases components with
    | nothing => exact absurd whole (nonempty _)
    | @registers _ _ pieces base _ _ _ _ cut few readBase readIndex =>
        obtain ⟨piece, others, cutRest⟩ := List.exists_cons_of_ne_nil
          (Text.split_ne_nil 44 (Text.trimEnd rest))
        -- The first comma, if there is one, stands right behind the base.
        obtain rfl : piece = [] :=
          eq_nil_of_split_trimEnd separated unnested.2 cutRest
        rw [← whole, Text.split_append_of_not_mem absent cutRest, List.append_nil,
          List.cons.injEq] at cut
        obtain ⟨rfl, rfl⟩ := cut
        rw [isBaseText.trim_eq] at readBase
        exact ⟨⟨unnested.2, size, others, cutRest, few, readIndex⟩, outer, base, readFront,
          readBase, rfl⟩
  · rintro ⟨⟨unnested, size, pieces, cutRest, few, readIndex⟩, outer, base, readFront, readBase,
      hasBase⟩
    obtain ⟨_, index, d, width⟩ := m
    obtain rfl : _ = some base := hasBase
    have cut := Text.split_append_of_not_mem absent cutRest
    rw [List.append_nil] at cut
    rw [← isBaseText.trim_eq] at readBase
    refine ⟨?_, size, outer, readFront, .registers (nonempty _) cut few readBase readIndex⟩
    rw [List.forall_mem_append]
    exact ⟨fun b member => (isBaseText.plain b member).2, unnested⟩

/-- An operand with a base is read in two parts that do not depend on each other. -/
theorem parse_eq_ok_iff {front rest back : Text} {m : Memory}
    (plain : ∀ b ∈ front, Text.isSolid b = true ∧ b ≠ 91)
    (separated : ∀ b ∈ rest.head?, b = 44 ∨ b = 93) (closed : 93 ∉ back) :
    parse (front ++ 91 :: (t ++ rest ++ 93 :: back)) = .ok m ↔
      HasRest (Text.trimEnd rest) (Text.trim (Text.trimEnd back)) m ∧
        ∃ outer base, parseFront front = .ok outer ∧
          parseBase outer t = .ok (base, m.displacement) ∧ m.base = some base := by
  rw [parse_eq_ok_iff_of_plain plain closed, isBaseText.hasParts_append_iff separated]

end IsBaseText

theorem plain_of_isNameByte {b : UInt8} (inName : Text.isNameByte b = true) :
    b ≠ 44 ∧ b ≠ 91 ∧ b ≠ 93 := by
  refine ⟨?_, ?_, ?_⟩ <;>
  · rintro rfl
    exact absurd inName (by decide)

theorem isBaseText_of_isIdentifier {t : Text} (identifier : Text.isIdentifier t = true) :
    IsBaseText t := by
  have solid := Text.isSolid_of_isIdentifier identifier
  have named := Text.isNameByte_of_isIdentifier identifier
  exact ⟨Text.ne_nil_of_isIdentifier identifier,
    fun b first => solid b (List.mem_of_mem_head? first),
    fun b last => solid b (List.mem_of_mem_getLast? last),
    fun b member => plain_of_isNameByte (named b member)⟩

end Memory

end Asm64
