import Asm64.Proofs.Assembler.Consistency
import Asm64.Proofs.Catalog.Families
import Asm64.Proofs.Instruction.Length
import Asm64.Proofs.Instruction.ValueFields

/-!
# The first match is the shortest

If every memory operand of an instruction has a size, the forms that accept the instruction agree
on the sizes of its operands.  Of two such forms, the one that comes first in the default catalog
has no more bytes and needs no REX prefix that the other one does without.
-/

namespace Asm64

namespace OperandValue

/-- Whether the operand is anything but a memory operand without a size. -/
def isSized : OperandValue → Bool
  | memory m => m.size.isSome
  | _ => true

def bits : OperandValue → Nat
  | register r => r.bits
  | memory m => (m.size.map (·.bits)).getD 0
  | _ => 0

end OperandValue

namespace OperandType

variable {type other : OperandType} {operandBits otherBits : Nat} {value : OperandValue}

/-- A type that implies a size takes registers and memory of this size only. -/
theorem bits_of_accepts (sized : value.isSized = true)
    (accepted : type.accepts operandBits value = true) :
    type.bits = 0 ∨ type.bits = value.bits := by
  cases type with
  | accumulator width | count =>
      simp only [accepts, decide_eq_true_eq] at accepted
      rw [accepted]
      exact Or.inr rfl
  | register width =>
      cases value with
      | register r =>
          simp only [accepts, Bool.and_eq_true, decide_eq_true_eq] at accepted
          exact Or.inr (congrArg Width.bits accepted.2.symm)
      | _ => cases accepted
  | registerOrMemory width =>
      cases value with
      | register r =>
          simp only [accepts, Bool.and_eq_true, decide_eq_true_eq] at accepted
          exact Or.inr (congrArg Width.bits accepted.2.symm)
      | memory m =>
          simp only [accepts, Bool.and_eq_true, decide_eq_true_eq] at accepted
          have size : m.size = some width := by
            apply accepted.1.resolve_left
            rw [OperandValue.isSized, Option.isSome_iff_ne_none] at sized
            exact sized
          simp [bits, OperandValue.bits, size]
      | _ => cases accepted
  | _ => exact Or.inl rfl

/-- Whether an operand with a size may have both types.  Types that imply a size have to agree on
it. -/
def mayShare (type other : OperandType) : Bool :=
  if type.isValue || other.isValue then type.isValue && other.isValue
  else type.bits = 0 || other.bits = 0 || type.bits = other.bits

theorem mayShare_of_accepts (sized : value.isSized = true)
    (accepted : type.accepts operandBits value = true)
    (otherAccepted : other.accepts otherBits value = true) :
    type.mayShare other = true := by
  rw [mayShare, isValue_of_accepts accepted, isValue_of_accepts otherAccepted]
  cases value.isNumber with
  | true => rfl
  | false =>
      have bits := bits_of_accepts sized accepted
      have otherBits := bits_of_accepts sized otherAccepted
      simp only [Bool.or_self, Bool.false_eq_true, if_false, Bool.or_eq_true, decide_eq_true_eq]
      omega

end OperandType

namespace Form

def mayShare (f g : Form) : Bool :=
  (f.operands.zip g.operands).all fun pair => pair.1.mayShare pair.2

/-- If both forms accept an instruction, then this one does at least as well. -/
def Precedes (f g : Form) : Prop := f.mayShare g = true → f.NoLonger g

instance : DecidableRel Precedes := fun f g =>
  inferInstanceAs (Decidable (f.mayShare g = true → f.NoLonger g))

theorem all_mayShare {types others : List OperandType} {operands : List Operand}
    {operandBits otherBits : Nat} (sized : ∀ operand ∈ operands, operand.value.isSized = true)
    (accepts : List.Forall₂ (fun type operand => type.accepts operandBits operand.value = true)
      types operands)
    (otherAccepts : List.Forall₂
      (fun type operand => type.accepts otherBits operand.value = true) others operands) :
    (types.zip others).all (fun pair => pair.1.mayShare pair.2) = true := by
  induction accepts generalizing others with
  | nil =>
      cases otherAccepts
      rfl
  | cons accepted _ inductionHypothesis =>
      cases otherAccepts with
      | cons otherAccepted otherAccepts =>
          obtain ⟨here, later⟩ := List.forall_mem_cons.mp sized
          rw [List.zip_cons_cons, List.all_cons, Bool.and_eq_true]
          exact ⟨OperandType.mayShare_of_accepts here accepted otherAccepted,
            inductionHypothesis later otherAccepts⟩

theorem mayShare_of_acceptsOperands {f g : Form} {operands : List Operand}
    (sized : ∀ operand ∈ operands, operand.value.isSized = true)
    (accepted : f.acceptsOperands operands = true)
    (otherAccepted : g.acceptsOperands operands = true) : f.mayShare g = true :=
  all_mayShare sized (acceptsOperands_iff.mp accepted) (acceptsOperands_iff.mp otherAccepted)

end Form

namespace Catalog

theorem arranged_standard : ∀ entry ∈ standard, entry.form.Arranged := by
  have onePlace : ∀ f ∈ defaultForms,
      f.encoding.registerModifier = none ∨ f.encoding.modRM = .none := by
    decide +kernel
  intro entry inCatalog
  refine ⟨(checked_standard entry inCatalog).matched, ?_⟩
  obtain ⟨f, inForms, rfl⟩ := List.mem_map.mp inCatalog
  exact onePlace f inForms

theorem precedes_in_families : ∀ family ∈ families, family.Pairwise Form.Precedes := by
  decide +kernel

theorem FoundIn.precedes {mnemonic : Text} {operands : List Operand} {before after : List Form}
    {first other : Form} (found : FoundIn mnemonic operands before first after)
    (inFamily : other ∈ before ++ first :: after)
    (accepted : other.accepts mnemonic operands = true) :
    first = other ∨ first.Precedes other := by
  have ordered := precedes_in_families _ found.isFamily
  rcases List.mem_append.mp inFamily with earlier | later
  · rw [found.rejected other earlier] at accepted
    cases accepted
  · rcases List.mem_cons.mp later with same | later
    · exact Or.inl same.symm
    · have following := (List.pairwise_append.mp ordered).2.1
      exact Or.inr ((List.pairwise_cons.mp following).1 other later)

/-- If no memory operand is without a size, then no form that accepts an instruction has a shorter
encoding of it than the form that is found first, which encodes it whenever another one does. -/
theorem first_match_is_shortest {mnemonic : Text} {operands : List Operand}
    (sized : ∀ operand ∈ operands, operand.value.isSized = true) {first : Entry}
    (found : standard.lookup? mnemonic operands = some first) {other : Entry}
    (inCatalog : other ∈ standard) (accepted : other.form.accepts mnemonic operands = true)
    {j : Instruction} (encoded : other.form.encode operands = .ok j) :
    ∃ i, first.form.encode operands = .ok i ∧ i.code.bytes.length ≤ j.code.bytes.length := by
  obtain ⟨before, after, foundIn⟩ := exists_foundIn found
  have inFamily := foundIn.competitors other inCatalog (Form.hasMnemonic_of_accepts accepted)
    (Form.length_of_accepts accepted)
  have firstInCatalog : first ∈ standard := List.mem_of_find?_eq_some found
  have takes := (Bool.and_eq_true_iff.mp foundIn.accepted).2
  have otherTakes := (Bool.and_eq_true_iff.mp accepted).2
  rcases foundIn.precedes inFamily accepted with same | precedes
  · exact ⟨j, by rw [same]; exact encoded, Nat.le_refl _⟩
  · have share := Form.mayShare_of_acceptsOperands sized takes otherTakes
    exact (precedes share).encode (checked_standard first firstInCatalog)
      (arranged_standard first firstInCatalog) takes (checked_standard other inCatalog)
      (arranged_standard other inCatalog) otherTakes encoded

/-- The addition of a byte to memory of 64 bits. -/
def sizedAddition : List Operand :=
  [⟨ascii "[rbx]q", .memory ⟨some (.general .qword 3), none, .constant 0, some .qword⟩⟩,
    ⟨ascii "5", .integer ⟨false, 5⟩⟩]

/-- It has a shorter form, whose immediate is a byte. -/
def longAddition : Form := form "ADD" [rm .qword, imm .dword] [0x81] ((slash 0).imm .dword)

theorem first_match_is_shortest_sample :
    ∃ first i, standard.lookup? (ascii "add") sizedAddition = some first ∧
      first.form.encode sizedAddition = .ok i ∧ i.code.bytes.length ≤ 7 := by
  have inCatalog : Entry.ofForm longAddition ∈ standard := List.mem_map_of_mem (by decide +kernel)
  have found : (standard.lookup? (ascii "add") sizedAddition).isSome = true := by decide +kernel
  have bytes : (longAddition.encode sizedAddition).toOption.map (·.code.bytes.length) = some 7 := by
    decide +kernel
  obtain ⟨first, found⟩ := Option.isSome_iff_exists.mp found
  simp only [Option.map_eq_some_iff, toOption_eq_some_iff] at bytes
  obtain ⟨j, encoded, length⟩ := bytes
  obtain ⟨i, isEncoded, noLonger⟩ :=
    first_match_is_shortest (by decide) found inCatalog (by decide +kernel) encoded
  rw [length] at noLonger
  exact ⟨first, i, found, isEncoded, noLonger⟩

end Catalog

end Asm64
