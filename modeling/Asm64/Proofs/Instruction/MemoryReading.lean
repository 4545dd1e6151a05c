import Asm64.Proofs.Instruction.Framing
import Asm64.Proofs.Instruction.References

/-!
# Memory operands are read back

From the ModR/M byte on, the processor needs only the REX prefix to know a memory operand: whether
a SIB byte follows, how long the displacement is, and which registers the low bits stand for.  What
is placed for an operand that 64-bit addressing can express reads as that operand, and whatever
comes behind it is left.
-/

namespace Asm64

namespace Decoder

/-- Reads a memory operand from the ModR/M byte on.  A register is none. -/
def readMemory? (rex : Rex) (bytes : List UInt8) : Option (Meaning × List UInt8) := do
  let ((modRM, sib, displacement), rest) ← readAddress? .register bytes
  if modRM.mod = 3 then none
  else return (Fields.memory ⟨false, rex, 0, modRM, sib, displacement, []⟩, rest)

end Decoder

namespace MachineCode

open Decoder

/-- The bytes from the ModR/M byte up to the value. -/
def addressBytes (c : MachineCode) : List UInt8 :=
  c.modRM.byte :: (optionalByte c.usesSib c.sib.byte ++ c.displacement)

theorem readAddress?_addressBytes {c : MachineCode} (framed : AddressFramed c) (rest : List UInt8) :
    readAddress? .register (c.addressBytes ++ rest) =
      some ((c.modRM, c.sib, c.displacement), rest) := by
  unfold readAddress?
  rw [if_neg (by decide), addressBytes, List.cons_append, List.append_assoc]
  dsimp only
  rw [readSib?_append framed, Option.bind_eq_bind, Option.bind_some]
  dsimp only
  rw [readBytes?_append framed.displacement]
  rfl

theorem readMemory?_addressBytes {c : MachineCode} {base : Option Register}
    {index : Option ScaledIndex} {displacement : Int}
    (addresses : Addresses c base index displacement) (rest : List UInt8) :
    readMemory? c.rex (c.addressBytes ++ rest) =
      some (.memory base index displacement, rest) := by
  rw [readMemory?, readAddress?_addressBytes addresses.framed, Option.bind_eq_bind,
    Option.bind_some]
  dsimp only
  rw [if_neg addresses.isMemory]
  exact congrArg (fun memory => some (memory, rest)) (addresses.memory 0)

/-- A number takes no more bytes than it needs, except where addressing has no shorter form. -/
theorem displacement_placeMemory_of_constant {m : Memory} {d : Int} (c : MachineCode)
    (isConstant : m.displacement = .constant d) :
    ((c.placeMemory m).displacement = c.displacement ∧ d = 0) ∨
      ((c.placeMemory m).displacement = littleEndian 1 (twosComplement d) ∧ -128 ≤ d ∧ d ≤ 127) ∨
      (c.placeMemory m).displacement = littleEndian 4 (twosComplement d) := by
  unfold placeMemory
  rw [isConstant]
  split
  · exact Or.inr (Or.inr rfl)
  · cases m.base with
    | none => exact Or.inr (Or.inr rfl)
    | some r =>
        unfold placeDisplacement
        dsimp only
        split
        · rename_i zero
          exact Or.inl ⟨displacement_placeBaseAndIndex c (some r) m.index, zero.1⟩
        · split
          · rename_i narrow
            exact Or.inr (Or.inl ⟨rfl, narrow⟩)
          · exact Or.inr (Or.inr rfl)

/-- An operand that 64-bit addressing can express is what the processor reads, with a displacement
of no byte only if it is zero and of one byte only if it fits.  A label stands for zero and takes
four bytes.  Nothing outside the address is changed. -/
theorem placeMemory_is_read_back {c : MachineCode} {m : Memory} (blank : AddressBlank c)
    (valid : m.check = .ok ()) (rest : List UInt8) :
    readMemory? (c.placeMemory m).rex ((c.placeMemory m).addressBytes ++ rest) =
        some (.memory m.base m.index m.displacement.constantPart, rest) ∧
      (∀ d, m.displacement = .constant d →
        ((c.placeMemory m).displacement.length = 0 ∧ d = 0) ∨
          ((c.placeMemory m).displacement.length = 1 ∧ -128 ≤ d ∧ d ≤ 127) ∨
          (c.placeMemory m).displacement.length = 4) ∧
      (∀ name, m.displacement = .label name →
        (c.placeMemory m).displacement = [0, 0, 0, 0]) ∧
      SameButAddress (c.placeMemory m) c := by
  have faultless : m.fault? = none := by
    cases fault : m.fault? with
    | none => rfl
    | some f => simp [Memory.check, fault] at valid
  obtain ⟨addresses, same⟩ := addresses_placeMemory blank faultless
  refine ⟨readMemory?_addressBytes addresses rest, ?_, ?_, same⟩
  · intro d isConstant
    rcases displacement_placeMemory_of_constant c isConstant with
      ⟨kept, zero⟩ | ⟨byte, fits⟩ | dword
    · left
      rw [kept, blank.displacement]
      exact ⟨rfl, zero⟩
    · right; left
      rw [byte, length_littleEndian]
      exact ⟨rfl, fits⟩
    · right; right
      rw [dword, length_littleEndian]
  · intro name isLabel
    exact displacement_placeMemory_of_label c (by rw [isLabel]; rfl)

/-- An index without a base, with the low bits of a missing index. -/
theorem placeMemory_is_read_back_sample :
    readMemory? ⟨0x02⟩ [0x04, 0xE5, 0xFF, 0xFF, 0xFF, 0xFF, 0x90] =
      some (.memory none (some ⟨.general .qword 12, .eight⟩) (-1), [0x90]) := by
  have read := (placeMemory_is_read_back (c := .empty)
    (m := ⟨none, some ⟨.general .qword 12, .eight⟩, .constant (-1), none⟩)
    ⟨rfl, rfl, rfl, by decide⟩ (by decide) [0x90]).1
  exact (congrArg₂ readMemory? (by decide) (by decide)).trans read

theorem Addresses.withDisplacement {c : MachineCode} {base : Option Register}
    {index : Option ScaledIndex} {displacement : Int}
    (addresses : Addresses c base index displacement) {bytes : List UInt8}
    (length : bytes.length = c.displacement.length) :
    Addresses { c with displacement := bytes } base index (signedOfLittleEndian bytes) where
  framed := ⟨addresses.framed.usesSib, addresses.framed.sib,
    length.trans addresses.framed.displacement⟩
  isMemory := addresses.isMemory
  memory opcodeLow := by
    have read := addresses.memory opcodeLow
    rw [Fields.memory, Meaning.memory.injEq] at read ⊢
    exact ⟨read.1, read.2.1, rfl⟩

end MachineCode

/-! ### Behind the opcode of a form -/

/-- Behind prefixes and the opcode of the form, the processor reads a memory operand, and nothing
but the value is left. -/
def Form.ReadsMemory (f : Form) (bytes : List UInt8) (memory : Meaning) : Prop :=
  ∃ (hasSizeOverride : Bool) (rex : Rex) (rest value : List UInt8),
    bytes = MachineCode.optionalByte hasSizeOverride 0x66 ++
      MachineCode.optionalByte (rex.byte != 0) rex.byte ++ f.encoding.opcode ++ rest ∧
    (rex.byte = 0 ∨ rex.byte &&& 0xF0 = 0x40) ∧
    Decoder.readMemory? rex rest = some (memory, value) ∧
    value.length = f.encoding.valueBits / 8

namespace Framed

open MachineCode

variable {f : Form} {c : MachineCode} {opcodeLow : UInt8} (framed : Framed f c opcodeLow)

include framed

theorem withDisplacement {bytes : List UInt8} (length : bytes.length = c.displacement.length) :
    Framed f { c with displacement := bytes } opcodeLow :=
  { framed with
    address := fun hasModRM =>
      ⟨(framed.address hasModRM).usesSib, (framed.address hasModRM).sib,
        length.trans (framed.address hasModRM).displacement⟩
    noAddress := fun noModRM => by
      obtain ⟨modRM, usesSib, sib, displacement⟩ := framed.noAddress noModRM
      rw [displacement, List.length_nil, List.length_eq_zero_iff] at length
      exact ⟨modRM, usesSib, sib, length⟩ }

variable {base : Option Register} {index : Option ScaledIndex} {displacement : Int}
  (addresses : Addresses c base index displacement)

include addresses

theorem readsMemory (hasModRM : f.encoding.modRM ≠ .none)
    (noModifier : f.encoding.registerModifier = none) :
    f.ReadsMemory c.bytes (.memory base index displacement) := by
  have legacy : optionalByte (c.legacy != 0) c.legacy = optionalByte (c.legacy != 0) 0x66 := by
    rcases framed.legacy with absent | override
    · rw [absent]
      rfl
    · rw [override]
  have usesModRM : optionalByte c.usesModRM c.modRM.byte = [c.modRM.byte] := by
    rw [framed.usesModRM, decide_eq_true hasModRM]
    rfl
  refine ⟨c.legacy != 0, c.rex, c.addressBytes ++ c.immediate, c.immediate, ?_, framed.rex,
    readMemory?_addressBytes addresses c.immediate, framed.value⟩
  rw [bytes, head, usesModRM, legacy, (framed.plain noModifier).1, addressBytes]
  simp only [List.append_assoc, List.cons_append, List.nil_append]

/-- If the opcode cannot be taken for a prefix, there is no other way to read the instruction. -/
theorem memory_of_readFields? (regular : f.Regular) :
    (Decoder.readFields? f.encoding c.bytes).map (·.memory) =
      some (.memory base index displacement) := by
  rw [framed.readFields?_bytes regular, Option.map_some, addresses.memory]

end Framed

end Asm64
