import Asm64.Proofs.Catalog.Families
import Asm64.Proofs.Instruction.ValueFields

/-!
# The width of memory without a size

Numbers and memory without a size fix no operand size, so that the order of the catalog decides how
wide the memory is.  A form that takes such operands does not come first if an earlier form of its
family covers it, that is, takes all that it takes.  In the families that have a form for 32 bits,
the forms for other widths are covered, with one exception: a byte that is shifted by an unsigned
count.  The count of a wider shift is sign-extended.
-/

namespace Asm64

namespace OperandValue

/-- Whether the operand is a number or memory without a size. -/
def isLoose : OperandValue → Bool
  | memory m => m.size.isNone
  | value => value.isNumber

/-- Whether the operand is a number that may be too large for a signed byte. -/
def mayExceedSignedByte : OperandValue → Bool
  | integer z => 128 ≤ z.value
  | label _ => true
  | _ => false

end OperandValue

/-! ### Types that take all that another type takes -/

namespace OperandType

/-- Whether the type takes numbers or memory. -/
def isLoose (type : OperandType) : Bool := type.isValue || type.isRegisterOrMemory

/-- Whether the field of one value takes all numbers that the field of another one takes.  A signed
field has to be wider than one that is not. -/
def coversField (type : OperandType) (width : Width) (operandBits : Nat) (other : OperandType)
    (otherWidth : Width) (otherBits : Nat) : Bool :=
  otherWidth.bits ≤ width.bits &&
    (type.isSigned width operandBits → other.isSigned otherWidth otherBits = false →
      otherWidth.bits < width.bits) &&
    (other.accepts otherBits (.label []) → type.accepts operandBits (.label []))

/-- Whether a type takes all numbers and all memory without a size that another type takes. -/
def covers (type : OperandType) (operandBits : Nat) (other : OperandType) (otherBits : Nat) :
    Bool :=
  if other.isRegisterOrMemory then type.isRegisterOrMemory
  else match type.valueWidth?, other.valueWidth? with
    | some width, some otherWidth =>
      type.coversField width operandBits other otherWidth otherBits
    | _, _ => false

variable {type other : OperandType} {operandBits otherBits : Nat} {value : OperandValue}

/-- Memory goes to positions of memory, if addressing can express it. -/
theorem place_of_accepts {m : Memory} (accepted : type.accepts operandBits (.memory m) = true) :
    type.isRegisterOrMemory = true ∧ m.isValid = true := by
  cases type with
  | registerOrMemory width => exact ⟨rfl, (Bool.and_eq_true_iff.mp accepted).2⟩
  | memory => exact ⟨rfl, accepted⟩
  | accumulator width | count | deviceAddress =>
      simp only [accepts, decide_eq_true_eq] at accepted
      cases accepted
  | _ => cases accepted

theorem isLoose_of_accepts (loose : value.isLoose = true)
    (accepted : type.accepts operandBits value = true) : type.isLoose = true := by
  rw [isLoose, Bool.or_eq_true]
  cases value with
  | register r => cases loose
  | memory m => exact Or.inr (place_of_accepts accepted).1
  | integer z => exact Or.inl (isValue_of_accepts accepted)
  | label name => exact Or.inl (isValue_of_accepts accepted)

theorem accepts_unsized {m : Memory} (isPlace : type.isRegisterOrMemory = true)
    (unsized : m.size = none) (valid : m.isValid = true) :
    type.accepts operandBits (.memory m) = true := by
  cases type with
  | registerOrMemory width => simp [accepts, unsized, valid]
  | memory => exact valid
  | _ => cases isPlace

theorem accepts_label (name : Text) :
    type.accepts operandBits (.label name) = type.accepts operandBits (.label []) := by
  cases type with
  | accumulator width | count | deviceAddress => simp [accepts]
  | _ => rfl

theorem accepts_integer_iff_isSigned {width : Width} (isValue : type.valueWidth? = some width)
    (z : Integer) :
    type.accepts operandBits (.integer z) = true ↔ -2 ^ (width.bits - 1) ≤ z.value ∧
      z.value <
        if type.isSigned width operandBits then 2 ^ (width.bits - 1) else 2 ^ width.bits := by
  have signed : type.isSigned width operandBits = true ↔
      type.isRelative = true ∨ width.bits < operandBits := by
    rw [isSigned, Bool.or_eq_true, isSignExtended, decide_eq_true_iff]
  rw [accepts_integer_iff isValue]
  simp only [signed]
  split <;> rfl

theorem accepts_integer_of_coversField {width otherWidth : Width} {z : Integer}
    (isValue : type.valueWidth? = some width) (isOtherValue : other.valueWidth? = some otherWidth)
    (covers : type.coversField width operandBits other otherWidth otherBits = true)
    (accepted : other.accepts otherBits (.integer z) = true) :
    type.accepts operandBits (.integer z) = true := by
  simp only [coversField, Bool.and_eq_true, decide_eq_true_iff] at covers
  obtain ⟨⟨narrower, signed⟩, -⟩ := covers
  rw [accepts_integer_iff_isSigned isOtherValue] at accepted
  rw [accepts_integer_iff_isSigned isValue]
  have positive : 0 < otherWidth.bits := by cases otherWidth <;> decide
  have low : (2 : Int) ^ (otherWidth.bits - 1) ≤ 2 ^ (width.bits - 1) :=
    pow_le_pow_right₀ (by norm_num) (by omega)
  have high : (2 : Int) ^ otherWidth.bits ≤ 2 ^ width.bits :=
    pow_le_pow_right₀ (by norm_num) narrower
  have half : (2 : Int) ^ (otherWidth.bits - 1) ≤ 2 ^ otherWidth.bits :=
    pow_le_pow_right₀ (by norm_num) (by omega)
  refine ⟨by omega, lt_of_lt_of_le accepted.2 ?_⟩
  cases isSigned : type.isSigned width operandBits with
  | false =>
      split
      · exact half.trans high
      · exact high
  | true =>
      cases isOtherSigned : other.isSigned otherWidth otherBits with
      | true => exact low
      | false =>
          have wider := signed isSigned isOtherSigned
          exact pow_le_pow_right₀ (by norm_num) (by omega)

theorem coversField_of_covers (isValue : other.isValue = true)
    (covers : type.covers operandBits other otherBits = true) :
    ∃ width otherWidth, type.valueWidth? = some width ∧ other.valueWidth? = some otherWidth ∧
      type.coversField width operandBits other otherWidth otherBits = true := by
  have notPlace : ¬ other.isRegisterOrMemory = true := by
    cases other with
    | immediate width | relative width => exact Bool.false_ne_true
    | _ => cases isValue
  unfold OperandType.covers at covers
  rw [if_neg notPlace] at covers
  split at covers
  · rename_i width otherWidth isWidth isOtherWidth
    exact ⟨width, otherWidth, isWidth, isOtherWidth, covers⟩
  · cases covers

theorem accepts_of_covers (loose : value.isLoose = true)
    (covers : type.covers operandBits other otherBits = true)
    (accepted : other.accepts otherBits value = true) : type.accepts operandBits value = true := by
  have isValue := isValue_of_accepts accepted
  cases value with
  | register r => cases loose
  | memory m =>
      unfold OperandType.covers at covers
      obtain ⟨isPlace, valid⟩ := place_of_accepts accepted
      rw [if_pos isPlace] at covers
      exact accepts_unsized covers (Option.isNone_iff_eq_none.mp loose) valid
  | integer z =>
      obtain ⟨width, otherWidth, isWidth, isOtherWidth, covers⟩ :=
        coversField_of_covers isValue covers
      exact accepts_integer_of_coversField isWidth isOtherWidth covers accepted
  | label name =>
      obtain ⟨width, otherWidth, -, -, covers⟩ := coversField_of_covers isValue covers
      simp only [coversField, Bool.and_eq_true, decide_eq_true_iff] at covers
      rw [accepts_label] at accepted ⊢
      exact covers.2 accepted

end OperandType

/-! ### Forms that stand behind others -/

namespace Form

def isLoose (f : Form) : Bool := f.operands.all (·.isLoose)

def covers (f g : Form) : Bool :=
  f.mnemonic == g.mnemonic && f.operands.length == g.operands.length &&
    (f.operands.zip g.operands).all fun pair =>
      pair.1.covers f.operandBits pair.2 g.operandBits

variable {f g : Form} {mnemonic : Text} {operands : List Operand}

theorem forall₂_of_covers {types others : List OperandType} {operandBits otherBits : Nat}
    (loose : ∀ operand ∈ operands, operand.value.isLoose = true)
    (count : types.length = others.length)
    (covers : (types.zip others).all
      (fun pair => pair.1.covers operandBits pair.2 otherBits) = true)
    (accepts : List.Forall₂ (fun type operand => type.accepts otherBits operand.value = true)
      others operands) :
    List.Forall₂ (fun type operand => type.accepts operandBits operand.value = true)
      types operands := by
  induction accepts generalizing types with
  | nil =>
      cases List.length_eq_zero_iff.mp count
      exact .nil
  | cons accepted _ inductionHypothesis =>
      cases types with
      | nil => cases count
      | cons type types =>
          rw [List.zip_cons_cons, List.all_cons, Bool.and_eq_true] at covers
          obtain ⟨here, later⟩ := List.forall_mem_cons.mp loose
          exact .cons (OperandType.accepts_of_covers here covers.1 accepted)
            (inductionHypothesis later (Nat.succ.inj count) covers.2)

theorem accepts_of_covers (loose : ∀ operand ∈ operands, operand.value.isLoose = true)
    (covers : f.covers g = true) (accepted : g.accepts mnemonic operands = true) :
    f.accepts mnemonic operands = true := by
  simp only [Form.covers, Bool.and_eq_true, beq_iff_eq] at covers
  obtain ⟨⟨sameMnemonic, count⟩, each⟩ := covers
  rw [accepts, Bool.and_eq_true, acceptsOperands_iff] at accepted ⊢
  refine ⟨?_, forall₂_of_covers loose count each accepted.2⟩
  rw [hasMnemonic, sameMnemonic]
  exact accepted.1

theorem isLoose_of_acceptsOperands (loose : ∀ operand ∈ operands, operand.value.isLoose = true)
    (accepted : g.acceptsOperands operands = true) : g.isLoose = true := by
  rw [isLoose, List.all_eq_true]
  intro type inForm
  obtain ⟨position, inside, rfl⟩ := List.mem_iff_getElem.mp inForm
  obtain ⟨count, each⟩ := List.forall₂_iff_get.mp (acceptsOperands_iff.mp accepted)
  have accepts := each position inside (count ▸ inside)
  exact OperandType.isLoose_of_accepts (loose _ (List.get_mem _ _)) accepts

theorem exists_type_of_acceptsOperands (accepted : f.acceptsOperands operands = true)
    {position : Nat} {operand : Operand} (here : operands[position]? = some operand) :
    ∃ type, f.operands[position]? = some type ∧
      type.accepts f.operandBits operand.value = true := by
  obtain ⟨inside, rfl⟩ := List.getElem?_eq_some_iff.mp here
  obtain ⟨count, each⟩ := List.forall₂_iff_get.mp (acceptsOperands_iff.mp accepted)
  have alsoInside : position < f.operands.length := count ▸ inside
  exact ⟨_, List.getElem?_eq_getElem alsoInside, each position alsoInside inside⟩

end Form

namespace Catalog

def shiftMnemonics : List Text :=
  ["ROL", "ROR", "RCL", "RCR", "SHL", "SAL", "SHR", "SAR"].map ascii

def isShift (mnemonic : Text) : Bool := shiftMnemonics.any fun name => Text.equalFold name mnemonic

/-- A form for memory of 32 bits, or one that does not come first, or a shift. -/
theorem dword_or_covered_in_families :
    ∀ family ∈ families, (∃ f ∈ family, rm .dword ∈ f.operands) →
      ∀ position, ∀ inside : position < family.length,
        family[position].isLoose = true →
          (∀ type ∈ family[position].operands, type.isRegisterOrMemory = true → type = rm .dword) ∨
          (∃ f ∈ family.take position, f.covers family[position] = true) ∨
          isShift family[position].mnemonic = true := by
  decide +kernel

theorem shifts_in_families :
    ∀ family ∈ families, ∀ position, ∀ inside : position < family.length,
      family[position].isLoose = true → isShift family[position].mnemonic = true →
        ∃ width ∈ Width.all, family[position].operands = [rm width, imm .byte] ∧
          (width = .dword ∨ ∃ f ∈ family.take position, f.mnemonic = family[position].mnemonic ∧
            f.operands = [rm .dword, imm .byte]) := by
  decide +kernel

theorem isShift_of_hasMnemonic {f : Form} {mnemonic : Text}
    (named : f.hasMnemonic mnemonic = true) : isShift f.mnemonic = isShift mnemonic := by
  rw [Form.hasMnemonic, Text.equalFold, beq_iff_eq] at named
  simp only [isShift, Text.equalFold, named]

section Family

variable {before after : List Form} {g : Form} (isFamily : before ++ g :: after ∈ families)
  (loose : g.isLoose = true)

include isFamily loose

theorem dword_or_covered (wide : ∃ f ∈ before ++ g :: after, rm .dword ∈ f.operands) :
    (∀ type ∈ g.operands, type.isRegisterOrMemory = true → type = rm .dword) ∨
      (∃ f ∈ before, f.covers g = true) ∨ isShift g.mnemonic = true := by
  simpa using dword_or_covered_in_families _ isFamily wide before.length (by simp)
    (by simpa using loose)

theorem operands_of_isShift (shift : isShift g.mnemonic = true) :
    ∃ width, g.operands = [rm width, imm .byte] ∧
      (width = .dword ∨
        ∃ f ∈ before, f.mnemonic = g.mnemonic ∧ f.operands = [rm .dword, imm .byte]) := by
  obtain ⟨width, -, shape⟩ := shifts_in_families _ isFamily before.length (by simp)
    (by simpa using loose) (by simpa using shift)
  exact ⟨width, by simpa using shape⟩

end Family

/-! ### Shifts by a number -/

theorem operandBits_of_shift {f : Form} {width : Width}
    (operands : f.operands = [rm width, imm .byte]) : f.operandBits = width.bits := by
  rw [Form.operandBits, operands]
  cases width <;> rfl

theorem acceptsOperands_shift_iff {f : Form} {width : Width} {operands : List Operand}
    (shape : f.operands = [rm width, imm .byte]) :
    f.acceptsOperands operands = true ↔ ∃ memory count, operands = [memory, count] ∧
      (rm width).accepts width.bits memory.value = true ∧
      (imm .byte).accepts width.bits count.value = true := by
  rw [Form.acceptsOperands_iff, shape, operandBits_of_shift shape]
  simp only [List.forall₂_cons_left_iff, List.forall₂_nil_left_iff]
  constructor
  · rintro ⟨memory, _, takesMemory, ⟨count, _, takesCount, rfl, rfl⟩, rfl⟩
    exact ⟨memory, count, rfl, takesMemory, takesCount⟩
  · rintro ⟨memory, count, rfl, takesMemory, takesCount⟩
    exact ⟨memory, _, takesMemory, ⟨count, _, takesCount, rfl, rfl⟩, rfl⟩

/-- A byte can be shifted by an unsigned count, and wider operands by a signed one. -/
theorem accepts_shiftCount {width : Width} {count : OperandValue} (isNumber : count.isNumber = true)
    (accepted : (imm .byte).accepts width.bits count = true) :
    if count.mayExceedSignedByte then width = .byte
    else ∀ other : Width, (imm .byte).accepts other.bits count = true := by
  have isValue : (imm .byte).valueWidth? = some .byte := rfl
  cases count with
  | register r | memory m => cases isNumber
  | label name =>
      rw [OperandValue.mayExceedSignedByte, if_pos rfl]
      cases width with
      | byte => rfl
      | _ => cases accepted
  | integer z =>
      rw [OperandType.accepts_integer_iff_isSigned isValue] at accepted
      split
      · rename_i exceeds
        have large : 128 ≤ z.value := of_decide_eq_true exceeds
        cases width with
        | byte => rfl
        | _ =>
            have small : z.value < 2 ^ (8 - 1) := accepted.2
            omega
      · rename_i small
        have small : z.value < 128 := by
          have bound := of_decide_eq_false (Bool.eq_false_of_not_eq_true small)
          omega
        intro other
        rw [OperandType.accepts_integer_iff_isSigned isValue]
        refine ⟨accepted.1, ?_⟩
        split
        · exact small
        · exact small.trans (by decide)

/-! ### The exact width -/

/-- There is memory of no given size, and numbers in all other positions. -/
structure UnsizedAt (operands : List Operand) (position : Nat) : Prop where
  exists_memory : ∃ operand m, operands[position]? = some operand ∧
    operand.value = .memory m ∧ m.size = none
  numbers : ∀ other, other ≠ position → ∀ operand, operands[other]? = some operand →
    operand.value.isNumber = true

theorem UnsizedAt.loose {operands : List Operand} {position : Nat}
    (unsized : UnsizedAt operands position) :
    ∀ operand ∈ operands, operand.value.isLoose = true := by
  intro operand member
  obtain ⟨other, here⟩ := List.mem_iff_getElem?.mp member
  by_cases same : other = position
  · subst same
    obtain ⟨_, m, atPosition, isMemory, size⟩ := unsized.exists_memory
    cases here.symm.trans atPosition
    rw [isMemory, OperandValue.isLoose, size]
    rfl
  · have isNumber := unsized.numbers other same operand here
    cases value : operand.value with
    | integer z | label name => rfl
    | register r | memory m =>
        rw [value] at isNumber
        cases isNumber

/-- The memory of a shift by a number is its first operand, and its width depends on the number. -/
theorem width_of_shift {before after : List Form} {g : Form} {mnemonic : Text}
    {operands : List Operand} {position : Nat}
    (found : FoundIn mnemonic operands before g after) (unsized : UnsizedAt operands position)
    (shift : isShift mnemonic = true) :
    g.operands[position]? = some (rm (if operands.any (·.value.mayExceedSignedByte) then .byte
      else .dword)) := by
  obtain ⟨named, accepts⟩ := Bool.and_eq_true_iff.mp found.accepted
  have isLoose := Form.isLoose_of_acceptsOperands unsized.loose accepts
  obtain ⟨width, shape, early⟩ := operands_of_isShift found.isFamily isLoose
    ((isShift_of_hasMnemonic named).trans shift)
  obtain ⟨memory, count, rfl, takesMemory, takesCount⟩ :=
    (acceptsOperands_shift_iff shape).mp accepts
  have isNumber : count.value.isNumber = true := (OperandType.isValue_of_accepts takesCount).symm
  have widths := accepts_shiftCount isNumber takesCount
  obtain ⟨target, m, here, isMemory, size⟩ := unsized.exists_memory
  obtain ⟨first, rfl⟩ : position = 0 ∧ memory = target := by
    match position, here with
    | 0, rfl => exact ⟨rfl, rfl⟩
    | 1, rfl =>
        rw [isMemory] at isNumber
        cases isNumber
  have any : [memory, count].any (·.value.mayExceedSignedByte) =
      count.value.mayExceedSignedByte := by
    simp [isMemory, OperandValue.mayExceedSignedByte]
  rw [any, shape, first]
  cases exceeds : count.value.mayExceedSignedByte with
  | true =>
      rw [exceeds, if_pos rfl] at widths
      rw [widths]
      rfl
  | false =>
      rw [exceeds, if_neg Bool.false_ne_true] at widths
      rcases early with rfl | ⟨f, earlier, sameMnemonic, sameShape⟩
      · rfl
      · -- The form for 32 bits takes the operands as well, and stands in front.
        have takes : f.acceptsOperands [memory, count] = true := by
          rw [acceptsOperands_shift_iff sameShape]
          refine ⟨memory, count, rfl, ?_, widths .dword⟩
          rw [isMemory] at takesMemory ⊢
          exact OperandType.accepts_unsized rfl size (OperandType.place_of_accepts takesMemory).2
        have isAccepted : f.accepts mnemonic [memory, count] = true := by
          rw [Form.accepts, Form.hasMnemonic, sameMnemonic, takes, Bool.and_true]
          exact named
        rw [found.rejected f earlier] at isAccepted
        cases isAccepted

/-- Memory without a size next to numbers only is taken to be 32 bits wide if there is such a form,
unless a byte is shifted by a number that does not fit a signed byte. -/
theorem unsized_memory_width {mnemonic : Text} {operands : List Operand} {position : Nat}
    (unsized : UnsizedAt operands position)
    (wide : ∃ entry ∈ standard, entry.form.hasMnemonic mnemonic = true ∧
      entry.form.operands.length = operands.length ∧
      entry.form.operands[position]? = some (rm .dword))
    {first : Entry} (found : standard.lookup? mnemonic operands = some first) :
    first.form.operands[position]? =
      some (rm (if isShift mnemonic && operands.any (·.value.mayExceedSignedByte) then .byte
        else .dword)) := by
  obtain ⟨before, after, foundIn⟩ := exists_foundIn found
  cases shift : isShift mnemonic with
  | true => exact width_of_shift foundIn unsized shift
  | false =>
      obtain ⟨named, accepts⟩ := Bool.and_eq_true_iff.mp foundIn.accepted
      have isLoose := Form.isLoose_of_acceptsOperands unsized.loose accepts
      obtain ⟨entry, inCatalog, isNamed, count, isWide⟩ := wide
      have inFamily := foundIn.competitors entry inCatalog isNamed count
      rcases dword_or_covered foundIn.isFamily isLoose
          ⟨_, inFamily, List.mem_of_getElem? isWide⟩ with
        isDword | ⟨f, earlier, covers⟩ | isShift
      · obtain ⟨operand, m, here, isMemory, -⟩ := unsized.exists_memory
        obtain ⟨type, isType, takes⟩ := Form.exists_type_of_acceptsOperands accepts here
        rw [isMemory] at takes
        obtain ⟨isPlace, -⟩ := OperandType.place_of_accepts takes
        rw [isType, isDword type (List.mem_of_getElem? isType) isPlace]
        rfl
      · have isAccepted := Form.accepts_of_covers unsized.loose covers foundIn.accepted
        rw [foundIn.rejected f earlier] at isAccepted
        cases isAccepted
      · rw [isShift_of_hasMnemonic named, shift] at isShift
        cases isShift

def shiftBy (count : Operand) : List Operand :=
  [⟨ascii "[rax]", .memory ⟨some (.general .qword 0), none, .constant 0, none⟩⟩, count]

theorem unsizedAt_shiftBy {count : Operand} (isNumber : count.value.isNumber = true) :
    UnsizedAt (shiftBy count) 0 where
  exists_memory := ⟨_, _, rfl, rfl, rfl⟩
  numbers other different operand here := by
    match other, here with
    | 0, _ => exact absurd rfl different
    | 1, rfl => exact isNumber

def shiftOfDword : Form := form "SHL" [rm .dword, imm .byte] [0xC1] ((slash 4).imm .byte)

/-- A label could be any number. -/
theorem unsized_memory_width_sample :
    ∃ first, standard.lookup? (ascii "shl") (shiftBy ⟨ascii "x", .label (ascii "x")⟩) = some first ∧
      first.form.operands[0]? = some (rm .byte) := by
  have found : (standard.lookup? (ascii "shl")
      (shiftBy ⟨ascii "x", .label (ascii "x")⟩)).isSome = true := by decide +kernel
  obtain ⟨first, found⟩ := Option.isSome_iff_exists.mp found
  have inCatalog : Entry.ofForm shiftOfDword ∈ standard :=
    List.mem_map_of_mem (by decide +kernel)
  have width := unsized_memory_width (unsizedAt_shiftBy rfl)
    ⟨_, inCatalog, by decide +kernel, rfl, rfl⟩ found
  exact ⟨first, found, width.trans (by decide +kernel)⟩

/-- Although there is a shift of 32 bits, this one is of a byte. -/
theorem unsigned_count_narrows_memory :
    UnsizedAt (shiftBy ⟨ascii "200", .integer ⟨false, 200⟩⟩) 0 ∧
      Entry.ofForm shiftOfDword ∈ standard ∧
      shiftOfDword.hasMnemonic (ascii "shl") = true ∧
      shiftOfDword.operands[0]? = some (rm .dword) ∧
      (standard.lookup? (ascii "shl") (shiftBy ⟨ascii "200", .integer ⟨false, 200⟩⟩)).map
        (·.form.operands) = some [rm .byte, imm .byte] :=
  ⟨unsizedAt_shiftBy rfl, List.mem_map_of_mem (by decide +kernel), by decide +kernel, rfl,
    by decide +kernel⟩

end Catalog

end Asm64
