import Asm64.Proofs.Instruction.Addressing
import Asm64.Proofs.Instruction.Placement

/-!
# Finding the fields of an instruction

The processor finds the fields that were put into an instruction, if the opcode cannot be taken
for a prefix and the SIB byte and the displacement are there exactly when the ModR/M byte says
so.
-/

namespace Asm64

/-- What the processor needs of a form: the operands fit the encoding, at most one of the operands
is held in the opcode or in the r/m field, the opcode does not begin like a prefix, and it leaves
room for the register that it holds. -/
structure Form.Regular (f : Form) : Prop where
  matched : f.mismatch? = none
  onePlace : f.encoding.registerModifier = none ∨ f.encoding.modRM = .none
  notPrefix : ∀ first ∈ f.encoding.opcode.head?, first ≠ 0x66 ∧ first &&& 0xF0 ≠ 0x40 ∧
    (f.encoding.registerModifier ≠ none → first ≠ 0x60)
  room : f.encoding.registerModifier ≠ none →
    ∀ last ∈ f.encoding.opcode.getLast?, last &&& 7 = 0

theorem Form.regular_iff (f : Form) :
    f.Regular ↔ f.mismatch? = none ∧
      (f.encoding.registerModifier = none ∨ f.encoding.modRM = .none) ∧
      (∀ first ∈ f.encoding.opcode.head?, first ≠ 0x66 ∧ first &&& 0xF0 ≠ 0x40 ∧
        (f.encoding.registerModifier ≠ none → first ≠ 0x60)) ∧
      (f.encoding.registerModifier ≠ none →
        ∀ last ∈ f.encoding.opcode.getLast?, last &&& 7 = 0) :=
  ⟨fun ⟨matched, onePlace, notPrefix, room⟩ => ⟨matched, onePlace, notPrefix, room⟩,
    fun ⟨matched, onePlace, notPrefix, room⟩ => ⟨matched, onePlace, notPrefix, room⟩⟩

instance (f : Form) : Decidable f.Regular :=
  -- An optional byte is looked at, not compared with every byte there is.
  haveI (o : Option UInt8) (p : UInt8 → Prop) [DecidablePred p] : Decidable (∀ b ∈ o, p b) :=
    Option.decidableForallMem o
  decidable_of_iff' _ f.regular_iff

/-- The operands of a form fit the encoding, and at most one of them is held in the opcode or in the
r/m field.  Whatever its opcode, the operands of such a form do not get in each other's way. -/
structure Form.Arranged (f : Form) : Prop where
  matched : f.mismatch? = none
  onePlace : f.encoding.registerModifier = none ∨ f.encoding.modRM = .none

theorem Form.Regular.arranged {f : Form} (regular : f.Regular) : f.Arranged :=
  ⟨regular.matched, regular.onePlace⟩

namespace Form.Arranged

variable {f : Form} (arranged : f.Arranged)

include arranged

theorem mismatches_eq_none :
    f.modRMMismatch? = none ∧ f.modifierMismatch? = none ∧ f.valueMismatch? = none :=
  mismatch?_eq_none_iff.mp arranged.matched

theorem rule_of_register {type : OperandType} (inForm : type ∈ f.operands)
    (isRegister : type.isRegister = true) (modifier : f.encoding.registerModifier = none) :
    f.encoding.modRM = .register := by
  obtain ⟨modRMMatched, modifierMatched, -⟩ := arranged.mismatches_eq_none
  have some : f.registers.length ≠ 0 :=
    List.length_pos_of_mem (List.mem_filter.mpr ⟨inForm, isRegister⟩) |>.ne'
  cases rule : f.encoding.modRM with
  | register => rfl
  | none => simp [modifierMismatch?, modifier, rule, some] at modifierMatched
  | digit value => simp [modRMMismatch?, rule, some] at modRMMatched

theorem exists_register (modifier : f.encoding.registerModifier ≠ none) :
    ∃ type ∈ f.operands, type.isRegister = true := by
  obtain ⟨-, modifierMatched, -⟩ := arranged.mismatches_eq_none
  cases isModifier : f.encoding.registerModifier with
  | none => exact absurd isModifier modifier
  | some width =>
      cases registers : f.registers with
      | nil => simp [modifierMismatch?, isModifier, registers] at modifierMatched
      | cons type rest =>
          have inRegisters : type ∈ f.registers := registers ▸ List.mem_cons_self
          exact ⟨type, List.mem_filter.mp inRegisters⟩

theorem exists_value (field : f.encoding.value ≠ none) :
    ∃ type ∈ f.operands, type.isValue = true := by
  obtain ⟨-, -, valueMatched⟩ := arranged.mismatches_eq_none
  cases isField : f.encoding.value with
  | none => exact absurd isField field
  | some width =>
      cases values : f.values with
      | nil => simp [valueMismatch?, isField, values] at valueMatched
      | cons type rest =>
          have inValues : type ∈ f.values := values ▸ List.mem_cons_self
          exact ⟨type, List.mem_filter.mp inValues⟩

end Form.Arranged

/-! ### Opcodes that hold a register -/

theorem and_seven_of_lt {low : UInt8} (small : low < 8) : low &&& 7 = low := by
  rcases cases_of_lt_eight small with rfl | rfl | rfl | rfl | rfl | rfl | rfl | rfl <;> rfl

theorem and_low_eq_zero {last low : UInt8} (room : last &&& 7 = 0) (small : low < 8) :
    last &&& low = 0 := by
  rw [← and_seven_of_lt small, UInt8.and_comm low, ← UInt8.and_assoc, room, UInt8.zero_and]

theorem add_low_eq_or {last low : UInt8} (room : last &&& 7 = 0) (small : low < 8) :
    last + low = last ||| low :=
  UInt8.toBitVec_inj.1 (BitVec.add_eq_or_of_and_eq_zero _ _
    (congrArg UInt8.toBitVec (and_low_eq_zero room small)))

theorem add_low_and_seven {last low : UInt8} (room : last &&& 7 = 0) (small : low < 8) :
    (last + low) &&& 7 = low := by
  rw [add_low_eq_or room small, or_and_byte, room, UInt8.zero_or, and_seven_of_lt small]

theorem add_low_and_of_high (mask : UInt8) {last low : UInt8} (room : last &&& 7 = 0)
    (small : low < 8) (high : 7 &&& mask = 0) : (last + low) &&& mask = last &&& mask := by
  have cleared : low &&& mask = 0 := by
    rw [← and_seven_of_lt small, UInt8.and_assoc, high, UInt8.and_zero]
  rw [add_low_eq_or room small, or_and_byte, cleared, UInt8.or_zero]

theorem and_high_eq_self {last : UInt8} (room : last &&& 7 = 0) : last &&& 0xF8 = last := by
  calc last &&& 0xF8 = (0xF8 &&& last) ||| (7 &&& last) := by
        rw [UInt8.and_comm 7, room, UInt8.or_zero, UInt8.and_comm]
    _ = (0xF8 ||| 7) &&& last := (or_and_byte _ _ _).symm
    _ = last := UInt8.neg_one_and

namespace Decoder

theorem readOpcode?_plain {opcode : List UInt8} (nonempty : opcode ≠ []) (rest : List UInt8) :
    readOpcode? false opcode (opcode ++ rest) = some (0, rest) := by
  induction opcode with
  | nil => exact absurd rfl nonempty
  | cons first later inductionHypothesis =>
      cases later with
      | nil => simp [readOpcode?]
      | cons second later =>
          rw [List.cons_append, List.cons_append, readOpcode?, if_pos rfl, ← List.cons_append]
          exact inductionHypothesis (List.cons_ne_nil _ _)

theorem addToLast_singleton (first low : UInt8) : Form.addToLast [first] low = [first + low] := rfl

theorem addToLast_cons_cons (first second : UInt8) (later : List UInt8) (low : UInt8) :
    Form.addToLast (first :: second :: later) low =
      first :: Form.addToLast (second :: later) low := by
  rw [Form.addToLast, Form.addToLast, List.getLast?_cons_cons]
  cases last : (second :: later).getLast? with
  | none => simp at last
  | some byte => rfl

theorem addToLast_ne_nil {opcode : List UInt8} (nonempty : opcode ≠ []) (low : UInt8) :
    Form.addToLast opcode low ≠ [] := by
  cases opcode with
  | nil => exact absurd rfl nonempty
  | cons first later =>
      rw [Form.addToLast, List.getLast?_cons]
      simp

theorem readOpcode?_register {opcode : List UInt8} {low : UInt8} (nonempty : opcode ≠ [])
    (room : ∀ last ∈ opcode.getLast?, last &&& 7 = 0) (small : low < 8) (rest : List UInt8) :
    readOpcode? true opcode (Form.addToLast opcode low ++ rest) = some (low, rest) := by
  induction opcode with
  | nil => exact absurd rfl nonempty
  | cons first later inductionHypothesis =>
      cases later with
      | nil =>
          have free : first &&& 7 = 0 := room first rfl
          have kept : (first + low) &&& 0xF8 = first := by
            rw [add_low_and_of_high 0xF8 free small (by decide), and_high_eq_self free]
          rw [addToLast_singleton, List.singleton_append, readOpcode?, if_pos rfl, if_pos kept,
            add_low_and_seven free small]
      | cons second later =>
          rw [addToLast_cons_cons, List.cons_append, readOpcode?, if_pos rfl]
          exact inductionHypothesis (List.cons_ne_nil _ _) room

end Decoder

theorem Form.Regular.head_addToLast {f : Form} (regular : f.Regular)
    (holdsRegister : f.encoding.registerModifier ≠ none) {low : UInt8} (small : low < 8) :
    ∀ byte ∈ (Form.addToLast f.encoding.opcode low).head?, byte ≠ 0x66 ∧ byte &&& 0xF0 ≠ 0x40 := by
  have notPrefix := regular.notPrefix
  have room := regular.room holdsRegister
  cases opcode : f.encoding.opcode with
  | nil => simp [Form.addToLast]
  | cons first later =>
      rw [opcode] at notPrefix room
      obtain ⟨notOverride, notRex, notSixty⟩ := notPrefix first rfl
      cases later with
      | nil =>
          rw [Decoder.addToLast_singleton]
          rintro byte ⟨⟩
          have free : first &&& 7 = 0 := room first rfl
          refine ⟨?_, ?_⟩
          · intro isOverride
            have kept := add_low_and_of_high 0xF8 free small (by decide)
            rw [isOverride, and_high_eq_self free] at kept
            exact notSixty holdsRegister kept.symm
          · rw [add_low_and_of_high 0xF0 free small (by decide)]
            exact notRex
      | cons second later =>
          rw [Decoder.addToLast_cons_cons]
          rintro byte ⟨⟩
          exact ⟨notOverride, notRex⟩

/-! ### All fields -/

/-- The fields of an instruction are there exactly when the processor looks for them. -/
structure Framed (f : Form) (c : MachineCode) (opcodeLow : UInt8) : Prop where
  legacy : c.legacy = 0 ∨ c.legacy = 0x66
  rex : c.rex.byte = 0 ∨ c.rex.byte &&& 0xF0 = 0x40
  hasOpcode : f.encoding.opcode ≠ []
  plain : f.encoding.registerModifier = none → c.opcode = f.encoding.opcode ∧ opcodeLow = 0
  holdsRegister : f.encoding.registerModifier ≠ none →
    c.opcode = Form.addToLast f.encoding.opcode opcodeLow ∧ opcodeLow < 8
  usesModRM : c.usesModRM = decide (f.encoding.modRM ≠ .none)
  address : f.encoding.modRM ≠ .none → MachineCode.AddressFramed c
  noAddress : f.encoding.modRM = .none →
    c.modRM = ⟨0⟩ ∧ c.usesSib = false ∧ c.sib = ⟨0⟩ ∧ c.displacement = []
  rule : Decoder.matchesRule c.modRM f.encoding.modRM = true
  value : c.immediate.length = f.encoding.valueBits / 8

namespace Decoder

open MachineCode

theorem readBytes?_append {count : Nat} {front : List UInt8} (length : front.length = count)
    (rest : List UInt8) : readBytes? count (front ++ rest) = some (front, rest) := by
  subst length
  simp [readBytes?]

theorem readSizeOverride_append {legacy : UInt8} (known : legacy = 0 ∨ legacy = 0x66)
    {rest : List UInt8} (other : ∀ byte ∈ rest.head?, byte ≠ 0x66) :
    readSizeOverride (optionalByte (legacy != 0) legacy ++ rest) = (legacy != 0, rest) := by
  rcases known with rfl | rfl
  · cases rest with
    | nil => rfl
    | cons byte rest =>
        change readSizeOverride (byte :: rest) = (false, byte :: rest)
        rw [readSizeOverride, if_neg (other byte rfl)]
  · rfl

theorem readRex_append {rex : Rex} (known : rex.byte = 0 ∨ rex.byte &&& 0xF0 = 0x40)
    {rest : List UInt8} (other : ∀ byte ∈ rest.head?, byte &&& 0xF0 ≠ 0x40) :
    readRex (optionalByte (rex.byte != 0) rex.byte ++ rest) = (rex, rest) := by
  obtain ⟨byte⟩ := rex
  dsimp only at known ⊢
  rcases known with rfl | isRex
  · cases rest with
    | nil => rfl
    | cons byte rest =>
        change readRex (byte :: rest) = (⟨0⟩, byte :: rest)
        rw [readRex, if_neg (other byte rfl)]
  · have present : (byte != 0) = true := by
      rw [bne_iff_ne]
      rintro rfl
      exact absurd isRex (by decide)
    rw [present, optionalByte, if_pos rfl, List.singleton_append, readRex, if_pos isRex]

theorem readSib?_append {c : MachineCode} (framed : AddressFramed c) (rest : List UInt8) :
    readSib? c.modRM (optionalByte c.usesSib c.sib.byte ++ rest) = some (c.sib, rest) := by
  have usesSib := framed.usesSib
  unfold readSib?
  cases present : hasSib c.modRM with
  | true =>
      rw [if_pos rfl, usesSib, present]
      rfl
  | false =>
      rw [present] at usesSib
      rw [if_neg Bool.false_ne_true, framed.sib usesSib, usesSib]
      rfl

end Decoder

namespace Framed

open Decoder MachineCode

variable {f : Form} {c : MachineCode} {opcodeLow : UInt8} (framed : Framed f c opcodeLow)

include framed

theorem readOpcode?_bytes (regular : f.Regular) (rest : List UInt8) :
    Decoder.readOpcode? f.encoding.registerModifier.isSome f.encoding.opcode (c.opcode ++ rest) =
      some (opcodeLow, rest) := by
  cases modifier : f.encoding.registerModifier with
  | none =>
      obtain ⟨opcode, rfl⟩ := framed.plain modifier
      rw [opcode]
      exact readOpcode?_plain framed.hasOpcode rest
  | some width =>
      have holdsRegister : f.encoding.registerModifier ≠ none := by simp [modifier]
      obtain ⟨opcode, small⟩ := framed.holdsRegister holdsRegister
      rw [opcode]
      exact readOpcode?_register framed.hasOpcode (regular.room holdsRegister) small rest

theorem opcode_notPrefix (regular : f.Regular) (rest : List UInt8) :
    ∀ byte ∈ (c.opcode ++ rest).head?, byte ≠ 0x66 ∧ byte &&& 0xF0 ≠ 0x40 := by
  have hasOpcode := framed.hasOpcode
  by_cases modifier : f.encoding.registerModifier = none
  · obtain ⟨opcode, -⟩ := framed.plain modifier
    have notPrefix := regular.notPrefix
    rw [opcode]
    cases isOpcode : f.encoding.opcode with
    | nil => exact absurd isOpcode hasOpcode
    | cons first later =>
        rw [isOpcode] at notPrefix
        rintro byte ⟨⟩
        obtain ⟨notOverride, notRex, -⟩ := notPrefix first rfl
        exact ⟨notOverride, notRex⟩
  · obtain ⟨opcode, small⟩ := framed.holdsRegister modifier
    have notPrefix := regular.head_addToLast modifier small
    rw [← opcode] at notPrefix
    cases isOpcode : c.opcode with
    | nil =>
        rw [isOpcode] at opcode
        exact absurd opcode.symm (addToLast_ne_nil hasOpcode opcodeLow)
    | cons first later =>
        rw [isOpcode] at notPrefix
        rintro byte ⟨⟩
        exact notPrefix first rfl

theorem readAddress?_bytes (rest : List UInt8) :
    Decoder.readAddress? f.encoding.modRM (optionalByte c.usesModRM c.modRM.byte ++
        (optionalByte c.usesSib c.sib.byte ++ (c.displacement ++ rest))) =
      some ((c.modRM, c.sib, c.displacement), rest) := by
  unfold Decoder.readAddress?
  by_cases rule : f.encoding.modRM = .none
  · obtain ⟨modRM, usesSib, sib, displacement⟩ := framed.noAddress rule
    rw [if_pos rule, framed.usesModRM, modRM, usesSib, sib, displacement, rule]
    rfl
  · have present : optionalByte c.usesModRM c.modRM.byte = [c.modRM.byte] := by
      rw [framed.usesModRM, decide_eq_true rule]
      rfl
    have address := framed.address rule
    rw [if_neg rule, present, List.singleton_append]
    dsimp only
    rw [readSib?_append address, Option.bind_eq_bind, Option.bind_some]
    dsimp only
    rw [readBytes?_append address.displacement]
    rfl

/-- The processor finds the fields of an instruction that has them where they belong. -/
theorem readFields?_bytes (regular : f.Regular) :
    Decoder.readFields? f.encoding c.bytes = some (c.fields opcodeLow) := by
  have opcode := framed.opcode_notPrefix regular
  have bytes : c.bytes = optionalByte (c.legacy != 0) c.legacy ++
      (optionalByte (c.rex.byte != 0) c.rex.byte ++ (c.opcode ++
        (optionalByte c.usesModRM c.modRM.byte ++ (optionalByte c.usesSib c.sib.byte ++
          (c.displacement ++ (c.immediate ++ [])))))) := by
    simp only [MachineCode.bytes, head, List.append_assoc, List.append_nil]
  have afterOverride : ∀ rest, ∀ byte ∈ (optionalByte (c.rex.byte != 0) c.rex.byte ++
      (c.opcode ++ rest)).head?, byte ≠ 0x66 := by
    intro rest
    cases present : c.rex.byte != 0 with
    | false => exact fun byte isFirst => (opcode rest byte isFirst).1
    | true =>
        rintro byte ⟨⟩ isOverride
        rcases framed.rex with absent | isRex
        · simp [absent] at present
        · rw [isOverride] at isRex
          exact absurd isRex (by decide)
  rw [bytes, Decoder.readFields?, readSizeOverride_append framed.legacy (afterOverride _)]
  dsimp only
  rw [readRex_append framed.rex fun byte isFirst => (opcode _ byte isFirst).2]
  dsimp only
  rw [framed.readOpcode?_bytes regular, Option.bind_eq_bind, Option.bind_some]
  dsimp only
  rw [framed.readAddress?_bytes, Option.bind_eq_bind, Option.bind_some]
  dsimp only
  rw [readBytes?_append framed.value, Option.bind_eq_bind, Option.bind_some]
  dsimp only
  rw [if_pos ⟨rfl, framed.rule⟩]
  rfl

end Framed

end Asm64
