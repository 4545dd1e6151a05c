import Asm64.Proofs.Instruction.Decoder
import Asm64.Proofs.MachineCode

/-!
# The fields of a memory operand

The fields that are placed for a memory operand stand for it: read as the processor reads them,
they give back its base, its index and its displacement.  The cases of the encoding are those in
which a low register number means something else, four and five.
-/

namespace Asm64

/-! ### Register numbers -/

theorem Register.low_lt (r : Register) : r.code.low < 8 := by
  have small : r.number % 8 < 8 := Nat.mod_lt _ (by decide)
  rw [UInt8.lt_iff_toNat_lt, code, UInt8.toNat_ofNat_of_lt' (lt_trans small (by decide))]
  exact small

theorem Decoder.registerNumber_code (width : Width) (number : Fin 16) :
    registerNumber (Register.general width number).code.extension
      (Register.general width number).code.low = number := by
  cases width <;> revert number <;> decide

theorem Register.eq_general_of_width {r : Register} (width : r.width = .qword) :
    r = .instructionPointer ∨ ∃ number, r = .general .qword number := by
  cases r with
  | general w number =>
      cases width
      exact Or.inr ⟨number, rfl⟩
  | highByte of => cases width
  | instructionPointer => exact Or.inl rfl

namespace Decoder.Fields

variable {fields : Fields}

theorem scale_eq {scale : Scale} (code : fields.sib.scale = scale.code) : fields.scale = scale := by
  unfold Fields.scale
  rw [code]
  cases scale <;> rfl

/-- The low bits of an index other than rsp are not taken for a missing index. -/
theorem index_isPresent {number : Fin 16} (notStackPointer : number ≠ 4) :
    ¬ ((Register.general .qword number).code.low = 4 ∧
      (Register.general .qword number).code.extension = false) := by
  revert number
  decide

theorem index?_eq_some {number : Fin 16} {scale : Scale} (notStackPointer : number ≠ 4)
    (rm : fields.modRM.rm = 4)
    (index : fields.sib.index = (Register.general .qword number).code.low)
    (extension : fields.rex.x = (Register.general .qword number).code.extension)
    (scaled : fields.sib.scale = scale.code) :
    fields.index? = some ⟨.general .qword number, scale⟩ := by
  rw [index?, rm, index, extension, if_pos ⟨rfl, index_isPresent notStackPointer⟩,
    registerNumber_code, scale_eq scaled]

theorem index?_eq_none
    (absent : fields.modRM.rm ≠ 4 ∨ (fields.sib.index = 4 ∧ fields.rex.x = false)) :
    fields.index? = none := by
  rw [index?, if_neg]
  rintro ⟨rm, present⟩
  exact absent.elim (fun other => other rm) present

theorem base?_eq_none (rm : fields.modRM.rm = 4) (mod : fields.modRM.mod = 0)
    (base : fields.sib.base = 5) : fields.base? = none := by
  rw [base?, if_pos rm, if_pos ⟨mod, base⟩]

theorem base?_eq_instructionPointer (rm : fields.modRM.rm = 5) (mod : fields.modRM.mod = 0) :
    fields.base? = some .instructionPointer := by
  rw [base?, if_neg (by rw [rm]; decide), if_pos ⟨mod, rm⟩]

theorem base?_eq_some {number : Fin 16}
    (extension : fields.rex.b = (Register.general .qword number).code.extension)
    (low : (if fields.modRM.rm = 4 then fields.sib.base else fields.modRM.rm) =
      (Register.general .qword number).code.low)
    (notFive : fields.modRM.mod = 0 → (Register.general .qword number).code.low ≠ 5) :
    fields.base? = some (.general .qword number) := by
  unfold base?
  split
  · rename_i rm
    rw [if_pos rm] at low
    rw [if_neg fun ⟨mod, five⟩ => notFive mod (low.symm.trans five), low, extension,
      registerNumber_code]
  · rename_i rm
    rw [if_neg rm] at low
    rw [if_neg fun ⟨mod, five⟩ => notFive mod (low.symm.trans five), low, extension,
      registerNumber_code]

end Decoder.Fields

namespace MachineCode

/-- The fields of machine code that the processor reads.  The low bits of the opcode are given. -/
def fields (c : MachineCode) (opcodeLow : UInt8) : Decoder.Fields :=
  ⟨c.legacy != 0, c.rex, opcodeLow, c.modRM, c.sib, c.displacement, c.immediate⟩

/-- There is a SIB byte and a displacement where the processor looks for them. -/
structure AddressFramed (c : MachineCode) : Prop where
  usesSib : c.usesSib = Decoder.hasSib c.modRM
  sib : c.usesSib = false → c.sib = ⟨0⟩
  displacement : c.displacement.length = Decoder.displacementSize c.modRM c.sib

structure AddressBlank (c : MachineCode) : Prop where
  usesSib : c.usesSib = false
  sib : c.sib = ⟨0⟩
  displacement : c.displacement = []
  index : c.rex.x = false

/-- Nothing but the fields of an address is different. -/
structure SameButAddress (c other : MachineCode) : Prop where
  legacy : c.legacy = other.legacy
  opcode : c.opcode = other.opcode
  usesModRM : c.usesModRM = other.usesModRM
  immediate : c.immediate = other.immediate
  reg : c.modRM.reg = other.modRM.reg
  w : c.rex.w = other.rex.w
  r : c.rex.r = other.rex.r
  mark : c.rex.byte &&& 0xF0 = other.rex.byte &&& 0xF0

theorem SameButAddress.trans {c d e : MachineCode} (first : SameButAddress c d)
    (second : SameButAddress d e) : SameButAddress c e :=
  ⟨first.legacy.trans second.legacy, first.opcode.trans second.opcode,
    first.usesModRM.trans second.usesModRM, first.immediate.trans second.immediate,
    first.reg.trans second.reg, first.w.trans second.w, first.r.trans second.r,
    first.mark.trans second.mark⟩

/-- The base and the index are placed, and nothing is behind them yet. -/
structure BaseAndIndex (c : MachineCode) (base : Option Register) (index : Option ScaledIndex) :
    Prop where
  usesSib : c.usesSib = decide (c.modRM.rm = 4)
  sib : c.usesSib = false → c.sib = ⟨0⟩
  ofSome : ∀ r, base = some r → c.rex.b = r.code.extension ∧
    (if c.modRM.rm = 4 then c.sib.base else c.modRM.rm) = r.code.low
  ofNone : base = none → c.modRM.rm = 4 ∧ c.sib.base = 5
  index : ∀ opcodeLow, (c.fields opcodeLow).index? = index
  displacement : c.displacement = []

theorem mark_setB (r : Rex) (value : Bool) : (r.setB value).byte &&& 0xF0 = r.byte &&& 0xF0 :=
  Rex.mark_replaceBits r value (by decide)

theorem mark_setX (r : Rex) (value : Bool) : (r.setX value).byte &&& 0xF0 = r.byte &&& 0xF0 :=
  Rex.mark_replaceBits r value (by decide)

theorem code_lt_four (scale : Scale) : scale.code < 4 := by
  cases scale <;> decide

def lowOfBase : Option Register → UInt8
  | some r => r.code.low
  | none => Sib.baseNone

def withBase (c : MachineCode) : Option Register → MachineCode
  | some r => { c with rex := c.rex.setB r.code.extension }
  | none => c

theorem lowOfBase_some (r : Register) : lowOfBase (some r) = r.code.low := rfl

theorem lowOfBase_none : lowOfBase none = 5 := rfl

theorem usesSib_withBase (c : MachineCode) (base : Option Register) :
    (c.withBase base).usesSib = c.usesSib := by
  cases base <;> rfl

theorem sib_withBase (c : MachineCode) (base : Option Register) :
    (c.withBase base).sib = c.sib := by
  cases base <;> rfl

theorem displacement_withBase (c : MachineCode) (base : Option Register) :
    (c.withBase base).displacement = c.displacement := by
  cases base <;> rfl

theorem extension_withBase {c : MachineCode} {base : Option Register} {r : Register}
    (isBase : base = some r) : (c.withBase base).rex.b = r.code.extension := by
  rw [isBase]
  exact (c.rex.bits_setB r.code.extension).2.2.2

theorem lowOfBase_lt (base : Option Register) : lowOfBase base < 8 := by
  cases base with
  | none => decide
  | some r => exact r.low_lt

theorem base_setBase_lowOfBase (s : Sib) (base : Option Register) :
    (s.setBase (lowOfBase base)).base = lowOfBase base :=
  Sib.base_setBase s (lowOfBase_lt base)

theorem placeBaseAndIndex_eq_some (c : MachineCode) (base : Option Register)
    (index : ScaledIndex) :
    c.placeBaseAndIndex base (some index) =
      { c.withBase base with
        usesSib := true
        modRM := c.modRM.setRm ModRM.rmSib
        rex := (c.withBase base).rex.setX index.register.code.extension
        sib := ((c.sib.setBase (lowOfBase base)).setIndex index.register.code.low).setScale
          index.scale.code } := by
  cases base <;> rfl

theorem placeBaseAndIndex_eq_none (c : MachineCode) (base : Option Register) :
    c.placeBaseAndIndex base none =
      if base = none ∨ lowOfBase base = Sib.baseStackPointer then
        { c.withBase base with
          usesSib := true
          modRM := c.modRM.setRm ModRM.rmSib
          sib := (c.sib.setBase (lowOfBase base)).setIndex Sib.indexNone }
      else { c.withBase base with modRM := c.modRM.setRm (lowOfBase base) } := by
  cases base <;> rfl

theorem sameButAddress_withBase (c : MachineCode) (base : Option Register) :
    SameButAddress (c.withBase base) c ∧ (c.withBase base).rex.x = c.rex.x := by
  cases base with
  | none => exact ⟨⟨rfl, rfl, rfl, rfl, rfl, rfl, rfl, rfl⟩, rfl⟩
  | some r =>
      obtain ⟨w, r', x, b⟩ := c.rex.bits_setB r.code.extension
      exact ⟨⟨rfl, rfl, rfl, rfl, rfl, w, r', mark_setB _ _⟩, x⟩

theorem placeBaseAndIndex_some {c : MachineCode} (blank : AddressBlank c) (base : Option Register)
    {number : Fin 16} (scale : Scale) (notStackPointer : number ≠ 4) :
    BaseAndIndex (c.placeBaseAndIndex base (some ⟨.general .qword number, scale⟩)) base
        (some ⟨.general .qword number, scale⟩) ∧
      SameButAddress (c.placeBaseAndIndex base (some ⟨.general .qword number, scale⟩)) c := by
  obtain ⟨w, r, x, b⟩ :=
    (c.withBase base).rex.bits_setX (Register.general .qword number).code.extension
  have same := (sameButAddress_withBase c base).1
  have rm : (c.modRM.setRm ModRM.rmSib).rm = 4 := ModRM.rm_setRm c.modRM (by decide)
  have index := Sib.index_setIndex (c.sib.setBase (lowOfBase base))
    (Register.general .qword number).low_lt
  have scaled := Sib.scale_setScale
    ((c.sib.setBase (lowOfBase base)).setIndex (Register.general .qword number).code.low)
    (code_lt_four scale)
  rw [placeBaseAndIndex_eq_some]
  refine ⟨⟨?_, ?_, ?_, ?_, ?_, ?_⟩, ⟨same.legacy, same.opcode, same.usesModRM, same.immediate, ?_,
    w.trans same.w, r.trans same.r, (mark_setX _ _).trans same.mark⟩⟩
  · simp only [rm, decide_true]
  · simp only [Bool.true_eq_false, false_implies]
  · intro register isBase
    refine ⟨b.trans (extension_withBase isBase), ?_⟩
    simp only [rm, if_true, Sib.base_setScale, Sib.base_setIndex, base_setBase_lowOfBase]
    rw [isBase, lowOfBase_some]
  · intro isNone
    refine ⟨rm, ?_⟩
    simp only [Sib.base_setScale, Sib.base_setIndex, base_setBase_lowOfBase]
    rw [isNone, lowOfBase_none]
  · intro opcodeLow
    apply Decoder.Fields.index?_eq_some notStackPointer
    · exact rm
    · exact (Sib.index_setScale _ _).trans index
    · exact x
    · exact scaled
  · exact (displacement_withBase c base).trans blank.displacement
  · exact ModRM.reg_setRm _ _

theorem placeBaseAndIndex_none {c : MachineCode} (blank : AddressBlank c)
    (base : Option Register) :
    BaseAndIndex (c.placeBaseAndIndex base none) base none ∧
      SameButAddress (c.placeBaseAndIndex base none) c := by
  obtain ⟨same, x⟩ := sameButAddress_withBase c base
  have displacement := (displacement_withBase c base).trans blank.displacement
  rw [placeBaseAndIndex_eq_none]
  split
  · have rm : (c.modRM.setRm ModRM.rmSib).rm = 4 := ModRM.rm_setRm c.modRM (by decide)
    have index := Sib.index_setIndex (c.sib.setBase (lowOfBase base))
      (show Sib.indexNone < 8 by decide)
    refine ⟨⟨?_, ?_, ?_, ?_, ?_, displacement⟩, ⟨same.legacy, same.opcode, same.usesModRM,
      same.immediate, ?_, same.w, same.r, same.mark⟩⟩
    · simp only [rm, decide_true]
    · simp only [Bool.true_eq_false, false_implies]
    · intro r isBase
      refine ⟨extension_withBase isBase, ?_⟩
      simp only [rm, if_true, Sib.base_setIndex, base_setBase_lowOfBase]
      rw [isBase, lowOfBase_some]
    · intro isNone
      refine ⟨rm, ?_⟩
      simp only [Sib.base_setIndex, base_setBase_lowOfBase]
      rw [isNone, lowOfBase_none]
    · intro opcodeLow
      exact Decoder.Fields.index?_eq_none (Or.inr ⟨index, x.trans blank.index⟩)
    · exact ModRM.reg_setRm _ _
  · rename_i plain
    obtain ⟨hasBase, notFour⟩ := not_or.mp plain
    have rm : (c.modRM.setRm (lowOfBase base)).rm = lowOfBase base :=
      ModRM.rm_setRm c.modRM (lowOfBase_lt base)
    have rmNotFour : (c.modRM.setRm (lowOfBase base)).rm ≠ 4 := by
      rw [rm]
      exact notFour
    have usesSib := (usesSib_withBase c base).trans blank.usesSib
    refine ⟨⟨?_, fun _ => (sib_withBase c base).trans blank.sib, ?_, fun isNone =>
      absurd isNone hasBase, ?_, displacement⟩, ⟨same.legacy, same.opcode, same.usesModRM,
      same.immediate, ?_, same.w, same.r, same.mark⟩⟩
    · simp only [rmNotFour, decide_false, usesSib]
    · intro r isBase
      refine ⟨extension_withBase isBase, ?_⟩
      simp only [rmNotFour, if_false]
      rw [rm, isBase, lowOfBase_some]
    · intro opcodeLow
      exact Decoder.Fields.index?_eq_none (Or.inl rmNotFour)
    · exact ModRM.reg_setRm _ _

/-! ### Whole addresses -/

/-- The fields stand for a memory operand. -/
structure Addresses (c : MachineCode) (base : Option Register) (index : Option ScaledIndex)
    (displacement : Int) : Prop where
  framed : AddressFramed c
  isMemory : c.modRM.mod ≠ 3
  memory : ∀ opcodeLow, (c.fields opcodeLow).memory = .memory base index displacement

/-- The number of bytes that a displacement takes behind a base, or without one. -/
def sizeAfter (base : Option Register) (mod : UInt8) : Nat :=
  if mod = 1 then 1 else if mod = 2 then 4 else if base = none then 4 else 0

section SetMod

variable {c : MachineCode} {base : Option Register} {index : Option ScaledIndex} (mod : UInt8)
  (placed : BaseAndIndex c base index) (small : mod < 3)
  (plain : mod = 0 → ∀ r, base = some r → r.code.low ≠ 5) (baseless : base = none → mod = 0)

include placed small plain baseless

theorem displacementSize_setMod :
    Decoder.displacementSize (c.modRM.setMod mod) c.sib = sizeAfter base mod := by
  have read : (c.modRM.setMod mod).mod = mod :=
    ModRM.mod_setMod c.modRM (UInt8.lt_trans small (show (3 : UInt8) < 4 by decide))
  unfold Decoder.displacementSize sizeAfter
  rw [read, ModRM.rm_setMod]
  split
  · rfl
  · split
    · rfl
    · cases base with
      | none =>
          obtain ⟨rm, five⟩ := placed.ofNone rfl
          rw [if_pos ⟨baseless rfl, Or.inr ⟨rm, five⟩⟩, if_pos rfl]
      | some r =>
          obtain ⟨-, low⟩ := placed.ofSome r rfl
          rw [if_neg, if_neg (by simp)]
          rintro ⟨zero, rm | ⟨rm, five⟩⟩
          · rw [rm, if_neg (by decide)] at low
            exact plain zero r rfl low.symm
          · rw [if_pos rm, five] at low
            exact plain zero r rfl low.symm

theorem addresses_setMod (general : ∀ r, base = some r → ∃ number, r = .general .qword number)
    {bytes : List UInt8} (length : bytes.length = sizeAfter base mod) :
    Addresses { c with modRM := c.modRM.setMod mod, displacement := bytes } base index
      (signedOfLittleEndian bytes) := by
  have read : (c.modRM.setMod mod).mod = mod :=
    ModRM.mod_setMod c.modRM (UInt8.lt_trans small (show (3 : UInt8) < 4 by decide))
  have notThree : mod ≠ 3 := fun isThree => by
    rw [isThree] at small
    exact absurd small (by decide)
  refine ⟨⟨?_, placed.sib, ?_⟩, ?_, ?_⟩
  · simp only [Decoder.hasSib, read, ModRM.rm_setMod, placed.usesSib, ne_eq, notThree,
      not_false_eq_true, true_and]
  · exact length.trans (displacementSize_setMod mod placed small plain baseless).symm
  · exact fun isThree => notThree (read.symm.trans isThree)
  · intro opcodeLow
    have index := placed.index opcodeLow
    rw [Decoder.Fields.memory]
    congr 1
    · cases base with
      | none =>
          obtain ⟨rm, five⟩ := placed.ofNone rfl
          exact Decoder.Fields.base?_eq_none ((ModRM.rm_setMod _ _).trans rm)
            (read.trans (baseless rfl)) five
      | some r =>
          obtain ⟨number, rfl⟩ := general r rfl
          obtain ⟨extension, low⟩ := placed.ofSome _ rfl
          apply Decoder.Fields.base?_eq_some
          · exact extension
          · simp only [fields, ModRM.rm_setMod]
            exact low
          · intro zero
            exact plain (read.symm.trans zero) _ rfl
    · simp only [Decoder.Fields.index?, fields, ModRM.rm_setMod, Decoder.Fields.scale] at index ⊢
      exact index

end SetMod

theorem sameButAddress_setMod (c : MachineCode) (mod : UInt8) (bytes : List UInt8) :
    SameButAddress { c with modRM := c.modRM.setMod mod, displacement := bytes } c :=
  ⟨rfl, rfl, rfl, rfl, ModRM.reg_setMod _ _, rfl, rfl, rfl⟩

theorem signed_displacement_dword {d : Int} (low : -2 ^ 31 ≤ d) (high : d < 2 ^ 31) :
    signedOfLittleEndian (littleEndian 4 (twosComplement d)) = d := by
  apply signedOfLittleEndian_littleEndian (by decide) <;> omega

theorem signed_displacement_byte {d : Int} (low : -128 ≤ d) (high : d ≤ 127) :
    signedOfLittleEndian (littleEndian 1 (twosComplement d)) = d := by
  apply signedOfLittleEndian_littleEndian (by decide) <;> omega

theorem addresses_placeDisplacement {c : MachineCode} {base : Option Register}
    {index : Option ScaledIndex} {displacement : Displacement} (placed : BaseAndIndex c base index)
    (general : ∀ r, base = some r → ∃ number, r = .general .qword number)
    (low : -2 ^ 31 ≤ displacement.constantPart) (high : displacement.constantPart < 2 ^ 31) :
    Addresses (c.placeDisplacement base displacement) base index displacement.constantPart ∧
      SameButAddress (c.placeDisplacement base displacement) c := by
  cases base with
  | none =>
      refine ⟨?_, sameButAddress_setMod c _ _⟩
      have addresses := addresses_setMod 0 placed (by decide) (by simp) (by simp) general
        (length_littleEndian 4 (twosComplement displacement.constantPart))
      rwa [signed_displacement_dword low high] at addresses
  | some r =>
      have dword := addresses_setMod 2 placed (by decide) (fun zero => absurd zero (by decide))
        (by simp) general (length_littleEndian 4 (twosComplement displacement.constantPart))
      rw [signed_displacement_dword low high] at dword
      cases displacement with
      | label name => exact ⟨dword, sameButAddress_setMod c _ _⟩
      | constant d =>
          rw [Displacement.constantPart] at low high dword ⊢
          unfold placeDisplacement
          dsimp only
          split
          · rename_i zero
            have empty := placed.displacement
            have plain := addresses_setMod 0 placed (by decide)
              (fun _ other same => by cases same; exact zero.2) (by simp) general
              (show ([] : List UInt8).length = _ from rfl)
            rw [show signedOfLittleEndian [] = 0 from rfl, ← empty] at plain
            rw [zero.1]
            exact ⟨plain, sameButAddress_setMod c _ _⟩
          · split
            · rename_i narrow
              have byte := addresses_setMod 1 placed (by decide)
                (fun zero => absurd zero (by decide)) (by simp) general
                (length_littleEndian 1 (twosComplement d))
              rw [signed_displacement_byte narrow.1 narrow.2] at byte
              exact ⟨byte, sameButAddress_setMod c _ _⟩
            · exact ⟨dword, sameButAddress_setMod c _ _⟩

theorem addresses_instructionPointer {c : MachineCode} (blank : AddressBlank c) {d : Int}
    (low : -2 ^ 31 ≤ d) (high : d < 2 ^ 31) :
    Addresses ({ c with modRM := (c.modRM.setMod ModRM.modPlain).setRm ModRM.rmRelative
      }.putDisplacement 4 d) (some .instructionPointer) none d ∧
    SameButAddress ({ c with modRM := (c.modRM.setMod ModRM.modPlain).setRm ModRM.rmRelative
      }.putDisplacement 4 d) c := by
  have mod : ((c.modRM.setMod ModRM.modPlain).setRm ModRM.rmRelative).mod = 0 :=
    (ModRM.mod_setRm _ _).trans (ModRM.mod_setMod _ (by decide))
  have rm : ((c.modRM.setMod ModRM.modPlain).setRm ModRM.rmRelative).rm = 5 :=
    ModRM.rm_setRm _ (by decide)
  have notFour : ((c.modRM.setMod ModRM.modPlain).setRm ModRM.rmRelative).rm ≠ 4 := by
    rw [rm]
    decide
  refine ⟨⟨⟨?_, fun _ => blank.sib, ?_⟩, ?_, ?_⟩, ⟨rfl, rfl, rfl, rfl, ?_, rfl, rfl, rfl⟩⟩
  · simp only [putDisplacement, Decoder.hasSib, notFour, and_false, decide_false, blank.usesSib]
  · simp only [putDisplacement, length_littleEndian, Decoder.displacementSize, mod, rm, true_or,
      and_true, if_true]
    rfl
  · simp only [putDisplacement, mod]
    decide
  · intro opcodeLow
    rw [Decoder.Fields.memory]
    congr 1
    · exact Decoder.Fields.base?_eq_instructionPointer rm mod
    · exact Decoder.Fields.index?_eq_none (Or.inl notFour)
    · exact signed_displacement_dword low high
  · exact (ModRM.reg_setRm _ _).trans (ModRM.reg_setMod _ _)

end MachineCode

/-! ### Memory operands that can be expressed -/

namespace Memory

variable {m : Memory} (valid : m.fault? = none)

include valid

theorem faults_eq_none :
    m.baseFault? = none ∧ m.indexFault? = none ∧ m.displacementFault? = none := by
  simp only [fault?, Option.orElse_eq_orElse, Option.orElse_eq_or, Option.or_eq_none_iff] at valid
  exact valid

theorem base_of_valid {r : Register} (isBase : m.base = some r) :
    r = .instructionPointer ∨ ∃ number, r = .general .qword number := by
  have faultless := (faults_eq_none valid).1
  rw [baseFault?, isBase] at faultless
  apply Register.eq_general_of_width
  by_contra narrow
  simp [narrow] at faultless

theorem index_of_valid {index : ScaledIndex} (isIndex : m.index = some index) :
    m.base ≠ some .instructionPointer ∧
      ∃ number scale, number ≠ 4 ∧ index = ⟨.general .qword number, scale⟩ := by
  have faultless := (faults_eq_none valid).2.1
  rw [indexFault?, isIndex] at faultless
  dsimp only at faultless
  split at faultless
  · cases faultless
  · rename_i notInstructionPointer
    split at faultless
    · cases faultless
    · rename_i wide
      split at faultless
      · cases faultless
      · rename_i notStackPointer
        split at faultless
        · cases faultless
        · rename_i base
          obtain ⟨register, scale⟩ := index
          rcases Register.eq_general_of_width (not_not.mp wide) with isPointer | ⟨number, rfl⟩
          · exact absurd isPointer notInstructionPointer
          · refine ⟨base, number, scale, ?_, rfl⟩
            rintro rfl
            exact notStackPointer rfl

theorem displacement_of_valid :
    -2 ^ 31 ≤ m.displacement.constantPart ∧ m.displacement.constantPart < 2 ^ 31 := by
  have faultless := (faults_eq_none valid).2.2
  rw [displacementFault?, Int.pow_eq] at faultless
  split at faultless
  · cases faultless
  · omega

end Memory

/-- The fields of a memory operand stand for it, and nothing else is changed. -/
theorem MachineCode.addresses_placeMemory {c : MachineCode} {m : Memory} (blank : AddressBlank c)
    (valid : m.fault? = none) :
    Addresses (c.placeMemory m) m.base m.index m.displacement.constantPart ∧
      SameButAddress (c.placeMemory m) c := by
  obtain ⟨low, high⟩ := Memory.displacement_of_valid valid
  unfold placeMemory
  split
  · rename_i isPointer
    have noIndex : m.index = none := by
      cases isIndex : m.index with
      | none => rfl
      | some index => exact absurd isPointer (Memory.index_of_valid valid isIndex).1
    rw [isPointer, noIndex]
    exact addresses_instructionPointer blank low high
  · rename_i notPointer
    have general : ∀ r, m.base = some r → ∃ number, r = .general .qword number := by
      intro r isBase
      rcases Memory.base_of_valid valid isBase with rfl | isGeneral
      · exact absurd isBase notPointer
      · exact isGeneral
    have placed : BaseAndIndex (c.placeBaseAndIndex m.base m.index) m.base m.index ∧
        SameButAddress (c.placeBaseAndIndex m.base m.index) c := by
      cases isIndex : m.index with
      | none => exact placeBaseAndIndex_none blank m.base
      | some index =>
          obtain ⟨-, number, scale, notStackPointer, rfl⟩ := Memory.index_of_valid valid isIndex
          exact placeBaseAndIndex_some blank m.base scale notStackPointer
    obtain ⟨addresses, same⟩ := addresses_placeDisplacement placed.1 general low high
    exact ⟨addresses, same.trans placed.2⟩

end Asm64
