import Asm64.Catalog.Default
import Asm64.Proofs.Instruction.Operands
import Asm64.Proofs.Integer

/-!
# Encoded instructions can be decoded

Every operand that an instruction shows is read back by the processor: registers with the help of
the REX prefix, which is there whenever a register needs it and never next to a register that
excludes it, and values with the sign that they have at the operand size.
-/

namespace Asm64

/-! ### Registers -/

/-- A register is read back if the REX prefix is there when it is needed. -/
theorem Decoder.register_code {r : Register} {hasRex : Bool} (general : r.isGeneral = true)
    (needed : r.needsRex = true → hasRex = true) (excluded : r.isHighByte = true → hasRex = false) :
    register hasRex r.width r.code.extension r.code.low = r := by
  cases r with
  | general width number =>
      clear excluded
      cases width <;> cases hasRex <;> revert number <;> decide
  | highByte of =>
      rw [excluded rfl]
      clear needed excluded general
      revert of
      decide
  | instructionPointer => cases general

/-! ### Operands -/

namespace Form

open Draft MachineCode

/-- There is a REX prefix if a register needs it, and none if a register excludes it. -/
structure Draft.RexFits (d : Draft) : Prop where
  needed : d.needsRex = true → d.code.rex.byte ≠ 0
  excluded : d.highByte ≠ none → d.code.rex.byte = 0

variable {f : Form} {d : Draft} {type : OperandType} {value : OperandValue}

section Read

variable (opcodeLow : UInt8)

theorem register_of_holds {width : Width} {r : Register} (held : d.Holds width r)
    (rexFits : d.RexFits) :
    Decoder.register (d.code.fields opcodeLow).hasRex width r.code.extension r.code.low = r := by
  rw [← held.width]
  apply Decoder.register_code held.general
  · intro needed
    exact decide_eq_true (rexFits.needed (held.needsRex needed))
  · intro isHighByte
    exact decide_eq_false (not_not.mpr (rexFits.excluded (held.highByte isHighByte)))

theorem number_of_integer {width : Width} {i : Integer} (isValue : type.valueWidth? = some width)
    (immediate : d.code.immediate = littleEndian width.bytes i.toUInt64.toNat)
    (accepted : type.accepts f.operandBits (.integer i) = true) :
    (d.code.fields opcodeLow).number (type.isSigned width f.operandBits) =
      if type.isSigned width f.operandBits then i.value else i.value % 2 ^ width.bits := by
  have fits : type.isSigned width f.operandBits = true → i.fitsSigned width = true := by
    intro signed
    cases type with
    | immediate width =>
        cases isValue
        have extended : OperandType.isSignExtended width f.operandBits = true := signed
        rw [OperandType.accepts, extended] at accepted
        exact accepted
    | relative width =>
        cases isValue
        exact accepted
    | _ => cases isValue
  rw [Decoder.Fields.number, fields]
  dsimp only
  rw [immediate]
  split
  · rename_i signed
    exact Integer.signed_field (fits signed)
  · exact Integer.unsigned_field i width

theorem number_of_label {width : Width} (isSigned : Bool)
    (immediate : d.code.immediate = littleEndian width.bytes 0) :
    (d.code.fields opcodeLow).number isSigned = 0 := by
  rw [Decoder.Fields.number, fields]
  dsimp only
  rw [immediate, signedOfLittleEndian, ofLittleEndian_littleEndian]
  simp

theorem operand?_of_shown (rexFits : d.RexFits)
    (inOpcode : ∀ low, f.encoding.registerModifier ≠ none →
      d.code.opcode = addToLast f.encoding.opcode low → low = opcodeLow)
    (accepted : type.accepts f.operandBits value = true) (shown : d.Shown f type value) :
    (d.code.fields opcodeLow).operand? f type = some (type.meaning f.operandBits value) := by
  cases shown with
  | @fixed _ r implied =>
      cases type with
      | accumulator width =>
          cases implied
          rfl
      | count =>
          cases implied
          rfl
      | deviceAddress =>
          cases implied
          rfl
      | _ => cases implied
  | opcodeRegister modifier used held opcode b =>
      have register := register_of_holds opcodeLow held rexFits
      rw [← b, inOpcode _ modifier opcode] at register
      exact (if_pos modifier).trans (congrArg (some ∘ Meaning.register) register)
  | regField modifier rule used held reg r =>
      have register := register_of_holds opcodeLow held rexFits
      rw [← r, ← reg] at register
      exact (if_neg (not_not.mpr modifier)).trans (congrArg (some ∘ Meaning.register) register)
  | rmRegister used held mod rm b =>
      have register := register_of_holds opcodeLow held rexFits
      rw [← b, ← rm] at register
      exact (if_pos mod).trans (congrArg (some ∘ Meaning.register) register)
  | @memory _ m isPlace used addresses =>
      have memory := congrArg some (addresses.memory opcodeLow)
      cases type with
      | registerOrMemory width => exact (if_neg addresses.isMemory).trans memory
      | memory => exact (if_neg addresses.isMemory).trans memory
      | _ => cases isPlace
  | label isValue used immediate =>
      cases type with
      | immediate width =>
          cases isValue
          exact congrArg (some ∘ Meaning.value) (number_of_label opcodeLow _ immediate)
      | relative width =>
          cases isValue
          exact congrArg (some ∘ Meaning.value) (number_of_label opcodeLow _ immediate)
      | _ => cases isValue
  | integer isValue used immediate =>
      have number := number_of_integer opcodeLow isValue immediate accepted
      cases type with
      | immediate width =>
          cases isValue
          exact congrArg (some ∘ Meaning.value) number
      | relative width =>
          cases isValue
          exact congrArg (some ∘ Meaning.value) number
      | _ => cases isValue

end Read

/-! ### Whole instructions -/

theorem progress_start {code : MachineCode} (started : f.start = .ok code) :
    (Draft.ofCode code).Progress f ∧ f.encoding.opcode ≠ [] := by
  simp only [start, mapError_eq_ok_iff, setOpcode] at started
  split at started
  · cases started
  · rename_i length
    cases started
    refine ⟨⟨rfl, (Rex.bits_setW _ _).1, Rex.mark_replaceBits _ _ (by decide), rfl, fun _ => rfl,
      fun _ => rfl, fun _ => ⟨rfl, rfl, rfl, (Rex.bits_setW _ _).2.2.1⟩, Bool.noConfusion,
      fun _ => rfl, Bool.noConfusion⟩, ?_⟩
    rintro empty
    exact length (Or.inl (by rw [empty]; rfl))

structure Completed (f : Form) (d final : Draft) : Prop where
  kept : Extends f d final
  rexFits : final.RexFits
  legacy : final.code.legacy = d.code.legacy
  wide : final.code.rex.w = d.code.rex.w
  rex : final.code.rex.byte = 0 ∨ final.code.rex.byte &&& 0xF0 = 0x40
  opcode : final.code.opcode = d.code.opcode
  usesModRM : final.code.usesModRM = decide (f.encoding.modRM ≠ .none)
  rule : Decoder.matchesRule final.code.modRM f.encoding.modRM = true
  used : f.encoding.modRM ≠ .none → d.usedRegisterOrMemory = true
  address : SameAddress final.code d.code
  noModRM : f.encoding.modRM = .none → final.code.modRM = d.code.modRM
  immediate : final.code.immediate = d.code.immediate

theorem finishRex_spec {final : Draft} (finished : finishRex d = .ok final)
    (unmarked : d.code.rex.byte &&& 0xF0 = 0) :
    ∃ rex : Rex, final = { d with code := { d.code with rex } } ∧
      (rex.w = d.code.rex.w ∧ rex.r = d.code.rex.r ∧ rex.x = d.code.rex.x ∧
        rex.b = d.code.rex.b) ∧
      (rex.byte = 0 ∨ rex.byte &&& 0xF0 = 0x40) ∧ final.RexFits := by
  unfold finishRex at finished
  split at finished
  · split at finished
    · cases finished
    · rename_i noHighByte
      cases finished
      have marked : d.code.rex.setOn.byte &&& 0xF0 = 0x40 := by
        rw [Rex.setOn, or_and_byte, unmarked]
        rfl
      refine ⟨d.code.rex.setOn, rfl, d.code.rex.bits_setOn, Or.inr marked, ?_, ?_⟩
      · intro _ absent
        dsimp only at absent
        rw [absent] at marked
        exact absurd marked (by decide)
      · intro isHighByte
        exact absurd noHighByte isHighByte
  · rename_i absent
    obtain ⟨noBits, unneeded⟩ := not_or.mp absent
    cases finished
    exact ⟨d.code.rex, rfl, ⟨rfl, rfl, rfl, rfl⟩, Or.inl (not_not.mp noBits),
      fun needed => absurd needed unneeded, fun _ => not_not.mp noBits⟩

theorem digit_lt (digit : Fin 8) : UInt8.ofNat digit.val < 8 := by
  revert digit
  decide

theorem toNat_digit (digit : Fin 8) : (UInt8.ofNat digit.val).toNat = digit.val := by
  revert digit
  decide

theorem finishModRM_spec {next : Draft} (finished : f.finishModRM d = .ok next)
    (unused : d.code.usesModRM = false) :
    ∃ modRM : ModRM, next = { d with
        code := { d.code with modRM, usesModRM := decide (f.encoding.modRM ≠ .none) } } ∧
      (modRM.mod = d.code.modRM.mod ∧ modRM.rm = d.code.modRM.rm) ∧
      ((∀ digit, f.encoding.modRM ≠ .digit digit) → modRM = d.code.modRM) ∧
      Decoder.matchesRule modRM f.encoding.modRM = true ∧
      (f.encoding.modRM ≠ .none → d.usedRegisterOrMemory = true) := by
  unfold finishModRM at finished
  cases rule : f.encoding.modRM with
  | none =>
      rw [rule] at finished
      cases finished
      refine ⟨d.code.modRM, ?_, ⟨rfl, rfl⟩, fun _ => rfl, rfl, fun some => absurd rfl some⟩
      have same : decide (ModRMRule.none ≠ ModRMRule.none) = d.code.usesModRM := unused.symm
      rw [same]
  | register =>
      rw [rule] at finished
      dsimp only at finished
      split at finished
      · rename_i used
        cases finished
        exact ⟨d.code.modRM, rfl, ⟨rfl, rfl⟩, fun _ => rfl, rfl, fun _ => used.2⟩
      · cases finished
  | digit value =>
      rw [rule] at finished
      dsimp only at finished
      split at finished
      · rename_i used
        cases finished
        refine ⟨d.code.modRM.setReg (UInt8.ofNat value.val), rfl,
          ⟨ModRM.mod_setReg _ _, ModRM.rm_setReg _ _⟩, fun other => absurd rfl (other value), ?_,
          fun _ => used⟩
        rw [Decoder.matchesRule, ModRM.reg_setReg _ (digit_lt value), toNat_digit]
        exact decide_eq_true rfl
      · cases finished

theorem completed_of_finish {middle final : Draft} (progress : d.Progress f)
    (modRMFinished : f.finishModRM d = .ok middle) (rexFinished : finishRex middle = .ok final) :
    Completed f d final := by
  obtain ⟨modRM, rfl, ⟨mod, rm⟩, sameReg, rule, used⟩ :=
    finishModRM_spec modRMFinished progress.usesModRM
  obtain ⟨rex, rfl, ⟨w, r, x, b⟩, marked, rexFits⟩ := finishRex_spec rexFinished progress.unmarked
  have address : SameAddress { d.code with
      modRM, rex, usesModRM := decide (f.encoding.modRM ≠ .none) } d.code :=
    ⟨mod, rm, rfl, rfl, rfl, x, b⟩
  refine ⟨{ Extends.refl f d with
    opcodeRegister := fun _ _ => ⟨rfl, b⟩
    regField := fun _ isRegister => ⟨?_, r⟩
    place := fun _ => address }, rexFits, rfl, w, marked, rfl, rfl, rule, used, address, ?_, rfl⟩
  · exact congrArg ModRM.reg (sameReg fun digit => by simp [isRegister])
  · intro isNone
    exact sameReg fun digit => by simp [isNone]

theorem addToLast_injective {opcode : List UInt8} (nonempty : opcode ≠ []) :
    Function.Injective (addToLast opcode) := by
  intro low other same
  have last := List.getLast?_eq_some_getLast nonempty
  simp only [addToLast, last, List.append_cancel_left_eq, List.cons.injEq, and_true] at same
  exact (UInt8.add_right_inj _).mp same

section Complete

variable {placed final : Draft} {operands : List Operand}
  (arranged : f.Arranged) (progress : placed.Progress f)
  (shown : List.Forall₂ (fun type operand => placed.Shown f type operand.value) f.operands operands)

include arranged shown

theorem exists_opcodeLow (modifier : f.encoding.registerModifier ≠ none) :
    ∃ low : UInt8, placed.code.opcode = addToLast f.encoding.opcode low ∧ low < 8 := by
  obtain ⟨type, inForm, isRegister⟩ := arranged.exists_register modifier
  obtain ⟨operand, shown⟩ := exists_of_forall₂ shown inForm
  cases type <;> cases isRegister
  generalize operand.value = value at shown
  cases shown with
  | fixed implied => cases implied
  | @opcodeRegister _ r _ used held opcode b => exact ⟨r.code.low, opcode, r.low_lt⟩
  | regField noModifier => exact absurd noModifier modifier
  | memory isPlace => cases isPlace
  | label isValue => cases isValue
  | integer isValue => cases isValue

theorem usedValue_of_field (field : f.encoding.value ≠ none) : placed.usedValue = true := by
  obtain ⟨type, inForm, isValue⟩ := arranged.exists_value field
  obtain ⟨operand, shown⟩ := exists_of_forall₂ shown inForm
  generalize operand.value = value at shown
  cases shown with
  | label _ used => exact used
  | integer _ used => exact used
  | fixed implied =>
      cases type with
      | immediate width => cases implied
      | relative width => cases implied
      | _ => cases isValue
  | opcodeRegister => cases isValue
  | regField => cases isValue
  | rmRegister => cases isValue
  | memory isPlace =>
      cases type with
      | immediate width => cases isPlace
      | relative width => cases isPlace
      | _ => cases isValue

include progress

theorem length_immediate : placed.code.immediate.length = f.encoding.valueBits / 8 := by
  cases used : placed.usedValue with
  | true =>
      have length := progress.value used
      omega
  | false =>
      have noField : f.encoding.value = none := by
        by_contra field
        rw [usedValue_of_field arranged shown field] at used
        cases used
      rw [progress.noValue used, Encoding.valueBits, noField]
      rfl

/-- A complete instruction has its fields where the processor looks for them. -/
theorem exists_framed (hasOpcode : f.encoding.opcode ≠ []) (completed : Completed f placed final) :
    ∃ opcodeLow, Framed f final.code opcodeLow := by
  have lowBits : ∃ low : UInt8,
      (f.encoding.registerModifier = none → placed.code.opcode = f.encoding.opcode ∧ low = 0) ∧
      (f.encoding.registerModifier ≠ none →
        placed.code.opcode = addToLast f.encoding.opcode low ∧ low < 8) := by
    by_cases modifier : f.encoding.registerModifier = none
    · exact ⟨0, fun _ => ⟨progress.opcode (Or.inl modifier), rfl⟩, absurd modifier⟩
    · obtain ⟨low, opcode⟩ := exists_opcodeLow arranged shown modifier
      exact ⟨low, fun none => absurd none modifier, fun _ => opcode⟩
  obtain ⟨opcodeLow, plain, holdsRegister⟩ := lowBits
  rw [← completed.opcode] at plain holdsRegister
  refine ⟨opcodeLow, ?_, completed.rex, hasOpcode, plain, holdsRegister, completed.usesModRM,
    ?_, ?_, completed.rule, ?_⟩
  · rw [completed.legacy, progress.legacy]
    split
    · exact Or.inr rfl
    · exact Or.inl rfl
  · intro hasModRM
    exact completed.address.framed (progress.framed (completed.used hasModRM)).2
  · intro noModRM
    have unused : placed.usedRegisterOrMemory = false := by
      by_contra used
      exact (progress.framed (Bool.eq_true_of_not_eq_false used)).1 noModRM
    have blank := progress.blank unused
    have same := completed.address
    exact ⟨(completed.noModRM noModRM).trans (progress.noModRM noModRM),
      same.usesSib.trans blank.usesSib, same.sib.trans blank.sib,
      same.displacement.trans blank.displacement⟩
  · rw [completed.immediate]
    exact length_immediate arranged progress shown

end Complete

/-- What a draft is when it has become an instruction: its fields are where the processor looks for
them, and they show the operands. -/
structure Draft.Complete (f : Form) (operands : List Operand) (d : Draft) : Prop where
  framed : ∃ opcodeLow, Framed f d.code opcodeLow
  shown : List.Forall₂ (fun type operand => d.Shown f type operand.value) f.operands operands
  rexFits : d.RexFits
  legacy : d.code.legacy = if f.operandBits = 16 then 0x66 else 0
  wide : d.code.rex.w = decide (f.encoding.defaultBits < f.operandBits)

theorem complete_of_encode {operands : List Operand} {i : Instruction} (arranged : f.Arranged)
    (encoded : f.encode operands = .ok i) :
    ∃ d : Draft, d.Complete f operands ∧ i = ⟨d.code, d.references⟩ := by
  obtain ⟨code, placed, middle, final, count, started, operandsPlaced, modRMFinished, rexFinished,
    rfl⟩ := encode_stages encoded
  obtain ⟨initial, hasOpcode⟩ := progress_start started
  obtain ⟨progress, -, shown⟩ :=
    shown_of_placeOperands arranged (List.Subset.refl _) count initial operandsPlaced
  have completed := completed_of_finish progress modRMFinished rexFinished
  exact ⟨final, ⟨exists_framed arranged progress shown hasOpcode completed,
    shown.imp fun _ _ here => here.extend completed.kept, completed.rexFits,
    completed.legacy.trans progress.legacy, completed.wide.trans progress.wide⟩, rfl⟩

/-- What the processor makes of an instruction that was encoded: the operand size of the form and
the operands that were written. -/
theorem decode?_of_encode {operands : List Operand} {i : Instruction} (regular : f.Regular)
    (accepted : f.acceptsOperands operands = true) (encoded : f.encode operands = .ok i) :
    f.decode? i.code.bytes =
      some ⟨decide (f.operandBits = 16), decide (f.encoding.defaultBits < f.operandBits),
        List.zipWith (fun type operand => type.meaning f.operandBits operand.value) f.operands
          operands⟩ := by
  obtain ⟨final, complete, rfl⟩ := complete_of_encode regular.arranged encoded
  obtain ⟨opcodeLow, framed⟩ := complete.framed
  have read : List.Forall₂ (fun type operand => (final.code.fields opcodeLow).operand? f type =
      some (type.meaning f.operandBits (Operand.value operand))) f.operands operands := by
    obtain ⟨length, each⟩ := List.forall₂_iff_zip.mp complete.shown
    refine List.forall₂_iff_zip.mpr ⟨length, fun {type operand} pair => ?_⟩
    have fits := (List.forall₂_iff_zip.mp (acceptsOperands_iff.mp accepted)).2 pair
    refine operand?_of_shown opcodeLow complete.rexFits ?_ fits (each pair)
    intro low modifier opcode
    exact addToLast_injective framed.hasOpcode
      (opcode.symm.trans (framed.holdsRegister modifier).1)
  have override : (final.code.legacy != 0) = decide (f.operandBits = 16) := by
    rw [complete.legacy]
    by_cases narrow : f.operandBits = 16
    · simp [narrow]
    · simp [narrow]
  rw [decode?, framed.readFields?_bytes regular, Option.bind_eq_bind, Option.bind_some,
    mapM_eq_some_zipWith read, ← override, ← complete.wide]
  rfl

end Form

/-! ### The default catalog -/

namespace Catalog

/-- All forms with operands are regular.  Some without operands hold a prefix in the opcode. -/
theorem regular_of_mem_defaultForms :
    ∀ f ∈ defaultForms, f.operands ≠ [] → f.Regular := by
  decide +kernel

/-- Every instruction of the default catalog that takes operands decodes to the operands it was
written with. -/
theorem decode?_of_encode_standard {entry : Entry} {operands : List Operand} {i : Instruction}
    (inCatalog : entry ∈ standard) (takesOperands : entry.form.operands ≠ [])
    (accepted : entry.form.acceptsOperands operands = true)
    (encoded : entry.form.encode operands = .ok i) :
    entry.form.decode? i.code.bytes =
      some ⟨decide (entry.form.operandBits = 16),
        decide (entry.form.encoding.defaultBits < entry.form.operandBits),
        List.zipWith (fun type operand => type.meaning entry.form.operandBits operand.value)
          entry.form.operands operands⟩ := by
  obtain ⟨f, inForms, rfl⟩ := List.mem_map.mp inCatalog
  exact Form.decode?_of_encode (regular_of_mem_defaultForms f inForms takesOperands) accepted
    encoded

def sampleForm : Form := form "ADD" [rm .qword, imm .byte] [0x83] ((slash 0).imm .byte)

def sampleOperands : List Operand :=
  [⟨ascii "[r13, r12, 8]", .memory ⟨some (.general .qword 13), some ⟨.general .qword 12, .eight⟩,
      .constant 0, none⟩⟩,
    ⟨ascii "-128", .integer ⟨true, 128⟩⟩]

/-- A base that needs a displacement, and an index with the low bits of a missing one. -/
theorem decode?_of_encode_standard_sample :
    sampleForm.decode? [0x4B, 0x83, 0x44, 0xE5, 0x00, 0x80] =
      some ⟨false, true, [.memory (some (.general .qword 13))
        (some ⟨.general .qword 12, .eight⟩) 0, .value (-128)]⟩ := by
  have inCatalog : Entry.ofForm sampleForm ∈ standard :=
    List.mem_map_of_mem (by decide +kernel)
  have bytes : (sampleForm.encode sampleOperands).toOption.map (·.code.bytes) =
      some [0x4B, 0x83, 0x44, 0xE5, 0x00, 0x80] := by decide +kernel
  simp only [Option.map_eq_some_iff, toOption_eq_some_iff] at bytes
  obtain ⟨i, encoded, bytes⟩ := bytes
  have decoded := decode?_of_encode_standard inCatalog (by decide) (by decide +kernel) encoded
  rw [bytes] at decoded
  exact decoded.trans (by decide +kernel)

end Catalog

end Asm64
