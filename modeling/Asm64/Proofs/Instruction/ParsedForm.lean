import Asm64.Proofs.Instruction.Consistency
import Asm64.Proofs.Instruction.Framing

/-!
# Forms that have been parsed

What a catalog says about an instruction may be wrong, but it is never at odds with itself: the
operands of a form that has been parsed have their places in its encoding, and no two of them share
a place.
-/

namespace Asm64

namespace Encoding

/-- What the clauses of an encoding have to be together. -/
structure Sensible (e : Encoding) : Prop where
  nonempty : e.opcode ≠ []
  short : e.opcode.length ≤ 3
  onePlace : e.registerModifier = none ∨ e.modRM = .none
  wide : 32 ≤ e.defaultBits

theorem checkWhole_eq_ok_iff {text : Text} {e checked : Encoding} :
    checkWhole text e = .ok checked ↔ e.Sensible ∧ e = checked := by
  have sensible : e.Sensible ↔ e.opcode ≠ [] ∧ ¬ 3 < e.opcode.length ∧
      ¬ (e.registerModifier ≠ none ∧ e.modRM ≠ .none) ∧ ¬ e.defaultBits < 32 := by
    rw [not_lt, not_lt, not_and_or, not_not, not_not]
    exact ⟨fun ⟨nonempty, short, onePlace, wide⟩ => ⟨nonempty, short, onePlace, wide⟩,
      fun ⟨nonempty, short, onePlace, wide⟩ => ⟨nonempty, short, onePlace, wide⟩⟩
  rw [sensible]
  unfold checkWhole
  split
  · simp [*]
  · split
    · simp [*]
    · split
      · simp [*]
      · split <;> simp [*]

theorem sensible_of_parse {t : Text} {e : Encoding} (parsed : parse t = .ok e) : e.Sensible := by
  simp only [parse, bind_eq_ok_iff] at parsed
  obtain ⟨whole, -, checked⟩ := parsed
  obtain ⟨sensible, rfl⟩ := checkWhole_eq_ok_iff.mp checked
  exact sensible

end Encoding

namespace Form

theorem parse_eq_ok_iff {t : Text} {f : Form} :
    Form.parse t = .ok f ↔
      ∃ expression encodingText, Text.cut 44 t = some (expression, encodingText) ∧
        parseExpression expression = .ok (f.mnemonic, f.operands) ∧
        Encoding.parse (Text.trim encodingText) = .ok f.encoding ∧ f.mismatch? = none := by
  rw [Form.parse, mapError_eq_ok_iff, parseWhole]
  constructor
  · intro parsed
    split at parsed
    · cases parsed
    · rename_i expression encodingText cut
      simp only [bind_eq_ok_iff, mapError_eq_ok_iff] at parsed
      obtain ⟨⟨mnemonic, operands⟩, readExpression, encoding, readEncoding, parsed⟩ := parsed
      dsimp only at parsed
      split at parsed
      · cases parsed
      · rename_i matched
        cases parsed
        exact ⟨_, _, cut, readExpression, readEncoding, matched⟩
  · rintro ⟨expression, encodingText, cut, readExpression, readEncoding, matched⟩
    obtain ⟨mnemonic, operands, encoding⟩ := f
    dsimp only at readExpression readEncoding
    rw [cut]
    dsimp only
    simp only [bind_eq_ok_iff, mapError_eq_ok_iff]
    refine ⟨_, readExpression, _, readEncoding, ?_⟩
    dsimp only
    rw [matched]
    rfl

section

variable {t : Text} {f : Form} (parsed : Form.parse t = .ok f)

include parsed

theorem matched_of_parse :
    f.mismatch? = none ∧ ∃ text, Encoding.parse text = .ok f.encoding := by
  obtain ⟨_, _, -, -, readEncoding, matched⟩ := parse_eq_ok_iff.mp parsed
  exact ⟨matched, _, readEncoding⟩

theorem checked_of_parse : f.Checked := by
  obtain ⟨matched, text, encodingParsed⟩ := matched_of_parse parsed
  have sensible := Encoding.sensible_of_parse encodingParsed
  exact ⟨matched, sensible.nonempty, sensible.short⟩

theorem arranged_of_parse : f.Arranged := by
  obtain ⟨matched, text, encodingParsed⟩ := matched_of_parse parsed
  exact ⟨matched, (Encoding.sensible_of_parse encodingParsed).onePlace⟩

end

end Form

end Asm64
