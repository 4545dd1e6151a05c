import Asm64.Catalog.Basic
import Asm64.Instruction
import Asm64.Proofs.Instruction.Clauses
import Asm64.Proofs.Instruction.ParsedForm

/-!
# Printed catalog entries

An entry of a catalog can be written in many ways, with its clauses in several orders and a register
next to the opcode byte or apart from it.  It is printed in one of them, which is read as the same
form.  The catalog then selects and encodes with it as before.
-/

namespace Asm64

/-! ### Operand types -/

namespace OperandType

theorem mem_all_of_ofName? {t : Text} {type : OperandType} (named : ofName? t = some type) :
    type ∈ all := by
  obtain ⟨entry, found, rfl⟩ := Option.map_eq_some_iff.mp named
  exact List.mem_map_of_mem (List.mem_of_find?_eq_some found)

theorem name_of_mem_all {type : OperandType} (member : type ∈ all) :
    ofName? type.name = some type ∧ type.name ≠ [] ∧
      ∀ b ∈ type.name, Text.isSolid b = true ∧ b ≠ 44 := by
  have listed : (all.all fun type => ofName? type.name == some type && !type.name.isEmpty &&
      type.name.all fun b => Text.isSolid b && b != 44) = true := by decide +kernel
  have checked := List.all_eq_true.mp listed type member
  simpa [and_assoc] using checked

end OperandType

namespace Form

/-! ### Expressions -/

theorem parseTypes_eq_ok_iff {names : List Text} {types : List OperandType} :
    parseTypes names = .ok types ↔
      List.Forall₂ (fun name type => OperandType.ofName? name = some type) names types := by
  rw [parseTypes, mapM_eq_ok_iff]
  constructor <;>
  · refine fun all => all.imp fun name type => ?_
    cases OperandType.ofName? name <;> simp

theorem parseExpression_eq_ok_iff {t mnemonic : Text} {types : List OperandType} :
    parseExpression t = .ok (mnemonic, types) ↔
      ∃ names, Text.fields t = mnemonic :: names ∧ isMnemonic mnemonic = true ∧
        names.length ≤ maxOperands ∧
        List.Forall₂ (fun name type => OperandType.ofName? name = some type) names types := by
  unfold parseExpression
  cases Text.fields t with
  | nil => simp
  | cons first names =>
      simp only [← parseTypes_eq_ok_iff, List.cons.injEq, ← not_lt]
      cases mnemonical : isMnemonic first with
      | false =>
          constructor
          · intro parsed
            cases parsed
          · rintro ⟨_, ⟨rfl, -⟩, impossible, -⟩
            rw [mnemonical] at impossible
            cases impossible
      | true =>
          by_cases many : maxOperands < names.length
          · simp [many, bind, Except.bind]
          · rw [if_neg many, if_neg (by decide : ¬ (!true) = true)]
            simp only [bind_eq_ok_iff, pure_eq_ok_iff, Prod.mk.injEq]
            constructor
            · rintro ⟨_, readTypes, rfl, rfl⟩
              exact ⟨names, ⟨rfl, rfl⟩, mnemonical, many, readTypes⟩
            · rintro ⟨_, ⟨rfl, rfl⟩, -, -, readTypes⟩
              exact ⟨types, readTypes, rfl, rfl⟩

/-! ### Forms -/

theorem isSolid_of_isMnemonic {mnemonic : Text} (mnemonical : isMnemonic mnemonic = true) :
    mnemonic ≠ [] ∧ ∀ b ∈ mnemonic, Text.isSolid b = true ∧ b ≠ 44 := by
  have identifier : Text.isIdentifier mnemonic = true := (Bool.and_eq_true_iff.mp mnemonical).1
  have named := Text.isNameByte_of_isIdentifier identifier
  refine ⟨Text.ne_nil_of_isIdentifier identifier, fun b member =>
    ⟨Text.isSolid_of_isNameByte (named b member), ?_⟩⟩
  rintro rfl
  exact absurd (named 44 member) (by decide)

structure Written (f : Form) : Prop where
  mnemonical : isMnemonic f.mnemonic = true
  few : f.operands.length ≤ maxOperands
  listed : ∀ type ∈ f.operands, type ∈ OperandType.all
  sensible : f.encoding.Sensible
  matched : f.mismatch? = none

theorem written_of_parse {t : Text} {f : Form} (parsed : Form.parse t = .ok f) : f.Written := by
  obtain ⟨expression, encodingText, -, readExpression, readEncoding, matched⟩ :=
    parse_eq_ok_iff.mp parsed
  obtain ⟨names, -, mnemonical, few, readTypes⟩ := parseExpression_eq_ok_iff.mp readExpression
  refine ⟨mnemonical, readTypes.length_eq ▸ few, fun type member => ?_,
    Encoding.sensible_of_parse readEncoding, matched⟩
  obtain ⟨name, named⟩ := exists_of_forall₂ readTypes.flip member
  exact OperandType.mem_all_of_ofName? named

section

variable {f : Form} (written : f.Written)

include written

theorem isSolid_expression :
    ∀ word ∈ f.mnemonic :: f.operands.map (·.name),
      word ≠ [] ∧ ∀ b ∈ word, Text.isSolid b = true ∧ b ≠ 44 := by
  rw [List.forall_mem_cons, List.forall_mem_map]
  exact ⟨isSolid_of_isMnemonic written.mnemonical,
    fun type member => (OperandType.name_of_mem_all (written.listed type member)).2⟩

theorem parseExpression_render :
    parseExpression f.renderExpression = .ok (f.mnemonic, f.operands) := by
  have words (word : Text) (member : word ∈ f.mnemonic :: f.operands.map (·.name)) :
      word ≠ [] ∧ ∀ b ∈ word, Text.isSolid b = true := by
    obtain ⟨nonempty, plain⟩ := isSolid_expression written word member
    exact ⟨nonempty, fun b inWord => (plain b inWord).1⟩
  refine parseExpression_eq_ok_iff.mpr ⟨_, Text.fields_join words, written.mnemonical, ?_, ?_⟩
  · rw [List.length_map]
    exact written.few
  · rw [List.forall₂_map_left_iff, List.forall₂_same]
    exact fun type member => (OperandType.name_of_mem_all (written.listed type member)).1

theorem parse_render : Form.parse f.render = .ok f := by
  have noComma : 44 ∉ f.renderExpression :=
    Text.not_mem_join (by decide) fun word member inWord =>
      ((isSolid_expression written word member).2 44 inWord).2 rfl
  have rendered : f.render = f.renderExpression ++ 44 :: 32 :: f.encoding.render := by
    simp [render, ascii]
  have trimmed : Text.trim f.encoding.render = f.encoding.render :=
    Text.trim_join (Encoding.isSolid_clauses f.encoding)
  refine parse_eq_ok_iff.mpr ⟨f.renderExpression, 32 :: f.encoding.render, ?_,
    parseExpression_render written, ?_, written.matched⟩
  · rw [rendered, Text.cut_append noComma]
  · rw [Text.trim_space, trimmed, Encoding.parse_render]
    exact Encoding.checkWhole_eq_ok_iff.mpr ⟨written.sensible, rfl⟩

end

end Form

namespace Catalog.Entry

/-- An entry that was read is read again after its form has been printed.  Only its text may be
another one: it has the same mnemonic, operand types and encoding, so it is printed in the same way,
and it accepts and encodes the same operands. -/
theorem entries_survive_printing {t : Text} {entry : Entry}
    (parsed : parse t = .ok entry) :
    ∃ again, parse entry.form.render = .ok again ∧
      again.form.mnemonic = entry.form.mnemonic ∧ again.form.operands = entry.form.operands ∧
      again.form.encoding = entry.form.encoding ∧ again.form.render = entry.form.render ∧
      (∀ mnemonic operands,
        again.form.accepts mnemonic operands = entry.form.accepts mnemonic operands) ∧
      ∀ operands, again.form.encode operands = entry.form.encode operands := by
  obtain ⟨form, formParsed, rfl⟩ := map_eq_ok_iff.mp parsed
  have reread := Form.parse_render (Form.written_of_parse formParsed)
  refine ⟨⟨form.render, form⟩, ?_, rfl, rfl, rfl, rfl, fun _ _ => rfl, fun _ => rfl⟩
  exact map_eq_ok_iff.mpr ⟨form, reread, rfl⟩

/-- The size is given before the opcode, and the register next to it. -/
theorem entries_survive_printing_sample :
    ∃ entry, parse (ascii "PUSH  reg64,oq 50+rq") = .ok entry ∧
      entry.form.render = ascii "PUSH reg64, 50 +rq oq" ∧
      ∃ again, parse (ascii "PUSH reg64, 50 +rq oq") = .ok again ∧
        again.form.encoding = entry.form.encoding ∧
        ∀ operands, again.form.encode operands = entry.form.encode operands := by
  have parsed : parse (ascii "PUSH  reg64,oq 50+rq") =
      .ok ⟨ascii "PUSH  reg64,oq 50+rq",
        ⟨ascii "PUSH", [.register .qword], ⟨[0x50], some .qword, .none, none, some .qword⟩⟩⟩ := by
    decide +kernel
  obtain ⟨again, reread, -, -, sameEncoding, -, -, encodes⟩ :=
    entries_survive_printing parsed
  exact ⟨_, parsed, by decide +kernel, again, reread, sameEncoding, encodes⟩

end Catalog.Entry

end Asm64
