import Asm64.Encoding
import Asm64.Proofs.Success
import Asm64.Proofs.Text.Blank
import Asm64.Proofs.Text.Cutting

/-!
# Clauses of encodings

The clauses of an encoding are printed in the order in which they may be read: the opcode bytes
before everything that places an operand.  An opcode byte is in upper case, so it is never taken for
another clause.  Each clause adds its own part, and together they rebuild any encoding, whether it
makes sense or not.
-/

namespace Asm64.Encoding

/-! ### Opcode bytes -/

def opcodeClause (b : UInt8) : Text := (Text.hexByte b).map Text.upperByte

theorem opcodeClause_eq (b : UInt8) :
    ∃ high low, opcodeClause b = [high, low] ∧ Text.isNameByte high = true ∧
      Text.isNameByte low = true ∧ Width.ofLetter? low = none ∧
      Text.isUpperCase [high, low] = true ∧ Integer.readNumeral? 16 [high, low] = some b.toNat := by
  have digits : ∀ n < 16, Text.isNameByte (Text.upperByte (Text.digit n)) = true ∧
      Width.ofLetter? (Text.upperByte (Text.digit n)) = none := by decide
  -- Whether a text is in upper case is asked of its characters, which may take two bytes.
  have numerals : ∀ m < 16, ∀ n < 16,
      Text.isUpperCase [Text.upperByte (Text.digit m), Text.upperByte (Text.digit n)] = true ∧
        Integer.readNumeral? 16 [Text.upperByte (Text.digit m), Text.upperByte (Text.digit n)] =
          some (m * 16 + n) := by decide +kernel
  have high : b.toNat / 16 < 16 := by have := b.toNat_lt; omega
  have low : b.toNat % 16 < 16 := Nat.mod_lt _ (by decide)
  obtain ⟨upper, read⟩ := numerals _ high _ low
  rw [Nat.div_add_mod'] at read
  exact ⟨_, _, rfl, (digits _ high).1, (digits _ low).1, (digits _ low).2, upper, read⟩

theorem addClause_opcodeClause (opcode : List UInt8) (b : UInt8) :
    addClause ⟨opcode, none, .none, none, none⟩ (opcodeClause b) =
      .ok ⟨opcode ++ [b], none, .none, none, none⟩ := by
  obtain ⟨high, low, clause, highNamed, lowNamed, notLetter, upper, read⟩ := opcodeClause_eq b
  have whole : Text.cut 43 [high, low] = none :=
    Text.cut_eq_none (Text.not_mem_of_isNameByte (by simp [highNamed, lowNamed]) (by decide))
  have noSlash : high ≠ 47 := by
    rintro rfl
    exact absurd highNamed (by decide)
  have added : addOpcode ⟨opcode, none, .none, none, none⟩ [high, low] =
      .ok ⟨opcode ++ [b], none, .none, none, none⟩ := by
    simp [addOpcode, upper, read]
  have plain : addPlainClause ⟨opcode, none, .none, none, none⟩ [high, low] =
      addOpcode ⟨opcode, none, .none, none, none⟩ [high, low] := by
    unfold addPlainClause
    split
    · rename_i same
      exact absurd (List.cons.inj same).1 noSlash
    · rename_i same
      cases same
      rw [notLetter]
    · rename_i same
      cases same
    · rfl
  rw [clause, addClause, whole]
  dsimp only
  rw [plain, added]
  rfl

theorem foldlM_opcodeClause (front back : List UInt8) :
    (back.map opcodeClause).foldlM addClause ⟨front, none, .none, none, none⟩ =
      .ok ⟨front ++ back, none, .none, none, none⟩ := by
  induction back generalizing front with
  | nil => rw [List.append_nil]; rfl
  | cons b back inductionHypothesis =>
      rw [List.map_cons, List.foldlM_cons, bind_eq_ok_iff]
      exact ⟨_, addClause_opcodeClause front b, by simpa using inductionHypothesis (front ++ [b])⟩

/-! ### Everything after the opcode -/

theorem foldlM_clauses (e : Encoding) : e.clauses.foldlM addClause empty = .ok e := by
  obtain ⟨opcode, modifier, modRM, value, size⟩ := e
  rw [clauses, List.foldlM_append, List.foldlM_append, List.foldlM_append, List.foldlM_append]
  simp only [bind_eq_ok_iff]
  -- Each group of clauses is added to an encoding that lacks its part and all later ones.
  refine ⟨⟨opcode, modifier, modRM, value, none⟩, ⟨⟨opcode, modifier, modRM, none, none⟩,
    ⟨⟨opcode, modifier, .none, none, none⟩, ⟨⟨opcode, none, .none, none, none⟩,
      foldlM_opcodeClause [] opcode, ?_⟩, ?_⟩, ?_⟩, ?_⟩
  · rcases modifier with _ | width
    · rfl
    · cases width <;> rfl
  · cases modRM with
    | none | register => rfl
    | digit value => fin_cases value <;> rfl
  · rcases value with _ | ⟨width, isOffset⟩
    · rfl
    · cases width <;> cases isOffset <;> rfl
  · rcases size with _ | width
    · rfl
    · cases width <;> rfl

/-! ### Printing -/

theorem solid_of_all {words : List Text}
    (checked : (words.all fun word => !word.isEmpty && word.all Text.isSolid) = true) :
    ∀ word ∈ words, word ≠ [] ∧ ∀ b ∈ word, Text.isSolid b = true := by
  simpa using checked

theorem isSolid_clauses (e : Encoding) :
    ∀ clause ∈ e.clauses, clause ≠ [] ∧ ∀ b ∈ clause, Text.isSolid b = true := by
  obtain ⟨opcode, modifier, modRM, value, size⟩ := e
  simp only [clauses, List.forall_mem_append]
  refine ⟨⟨⟨⟨?_, ?_⟩, ?_⟩, ?_⟩, ?_⟩
  · rw [List.forall_mem_map]
    intro b _
    obtain ⟨high, low, clause, highNamed, lowNamed, -⟩ := opcodeClause_eq b
    rw [← opcodeClause, clause]
    simp [Text.isSolid_of_isNameByte highNamed, Text.isSolid_of_isNameByte lowNamed]
  · rcases modifier with _ | width
    · exact List.forall_mem_nil _
    · cases width <;> exact solid_of_all (by decide)
  · cases modRM with
    | none => exact List.forall_mem_nil _
    | register => exact solid_of_all (by decide)
    | digit value => fin_cases value <;> exact solid_of_all (by decide)
  · rcases value with _ | ⟨width, isOffset⟩
    · exact List.forall_mem_nil _
    · cases width <;> cases isOffset <;> exact solid_of_all (by decide)
  · rcases size with _ | width
    · exact List.forall_mem_nil _
    · cases width <;> exact solid_of_all (by decide)

theorem parse_render (e : Encoding) : parse e.render = checkWhole e.render e := by
  have rebuilt := foldlM_clauses e
  rw [parse, show Text.fields e.render = e.clauses from Text.fields_join (isSolid_clauses e),
    rebuilt]
  rfl

end Asm64.Encoding
