import Asm64.Catalog.Diagnosis
import Asm64.Proofs.Assembler.Consistency
import Asm64.Proofs.Instruction.ValueFields
import Asm64.Proofs.Integer.Range

/-!
# Diagnosing values out of range

A form misses an instruction narrowly if all that is wrong is the integer in its value field.  A
form has at most one such field, so the miss is the fault of one operand, and the form takes every
integer of the range that is reported in its place.
-/

namespace Asm64

namespace Operand

def IntegerAt (operands : List Operand) (position : Nat) (z : Integer) : Prop :=
  ∃ operand, operands[position]? = some operand ∧ operand.value = .integer z

def replaceInteger (operands : List Operand) (position : Nat) (z : Integer) : List Operand :=
  operands.modify position fun operand => { operand with value := .integer z }

theorem getElem?_replaceInteger_of_ne (operands : List Operand) {position other : Nat}
    (different : other ≠ position) (z : Integer) :
    (replaceInteger operands position z)[other]? = operands[other]? :=
  List.getElem?_modify_ne _ _ different.symm

theorem IntegerAt.replace {operands : List Operand} {position : Nat} {old : Integer}
    (isInteger : IntegerAt operands position old) (new : Integer) :
    IntegerAt (replaceInteger operands position new) position new := by
  obtain ⟨operand, here, -⟩ := isInteger
  refine ⟨{ operand with value := .integer new }, ?_, rfl⟩
  rw [replaceInteger, List.getElem?_modify_eq, here]
  rfl

theorem IntegerAt.replace_self {operands : List Operand} {position : Nat} {z : Integer}
    (isInteger : IntegerAt operands position z) :
    replaceInteger operands position z = operands := by
  obtain ⟨operand, here, value⟩ := isInteger
  apply List.ext_getElem?
  intro other
  by_cases same : other = position
  · subst same
    rw [replaceInteger, List.getElem?_modify_eq, here, ← value]
    rfl
  · exact getElem?_replaceInteger_of_ne operands same z

theorem IntegerAt.unique {operands : List Operand} {position : Nat} {z other : Integer}
    (isInteger : IntegerAt operands position z) (isOther : IntegerAt operands position other) :
    z = other := by
  obtain ⟨operand, here, value⟩ := isInteger
  obtain ⟨sameOperand, alsoHere, otherValue⟩ := isOther
  cases here.symm.trans alsoHere
  cases value.symm.trans otherValue
  rfl

end Operand

open Operand

namespace OperandType

/-- A value position takes exactly the integers of the range that is reported for it. -/
theorem accepts_integer_iff_in_range {type : OperandType} {width : Width}
    (isValue : type.valueWidth? = some width) (operandBits : Nat) (name : Text)
    (reported z : Integer) {e : RangeError}
    (range : e = .ofWidth name reported width
      (type.isRelative || isSignExtended width operandBits)) :
    type.accepts operandBits (.integer z) = true ↔ e.least ≤ z.value ∧ z.value ≤ e.greatest := by
  have signed : (type.isRelative || isSignExtended width operandBits) = true ↔
      type.isRelative = true ∨ width.bits < operandBits := by
    rw [Bool.or_eq_true, isSignExtended, decide_eq_true_iff]
  have inRange := RangeError.contains_ofWidth_iff name reported width
    (type.isRelative || isSignExtended width operandBits) z.value
  rw [accepts_integer_iff isValue, ← RangeError.Contains, range, inRange]
  simp only [signed]
  split <;> rfl

theorem accepts_zero {type : OperandType} {width : Width} (isValue : type.valueWidth? = some width)
    (operandBits : Nat) : type.accepts operandBits (.integer ⟨false, 0⟩) = true := by
  have zero : (Integer.mk false 0).value = 0 := rfl
  have positive (bits : Nat) : (0 : Int) < 2 ^ bits := by positivity
  have low := positive (width.bits - 1)
  have high := positive width.bits
  rw [accepts_integer_iff isValue, zero]
  split <;> omega

theorem exists_valueWidth?_of_accepts {type : OperandType} {operandBits : Nat} {z : Integer}
    (accepted : type.accepts operandBits (.integer z) = true) :
    ∃ width, type.valueWidth? = some width := by
  cases type with
  | immediate width => exact ⟨width, rfl⟩
  | relative width => exact ⟨width.width, rfl⟩
  | accumulator width | count | deviceAddress =>
      simp only [accepts, decide_eq_true_eq] at accepted
      cases accepted
  | _ => cases accepted

end OperandType

namespace Form

variable {f : Form} {operands : List Operand} {position : Nat}

theorem acceptsOperands_iff_getElem? :
    f.acceptsOperands operands = true ↔ operands.length = f.operands.length ∧
      ∀ (position : Nat) (type : OperandType) (operand : Operand),
        f.operands[position]? = some type → operands[position]? = some operand →
          type.accepts f.operandBits operand.value = true := by
  rw [acceptsOperands, Bool.and_eq_true, beq_iff_eq, List.all_eq_true]
  refine and_congr_right fun _ => ⟨?_, ?_⟩
  · intro each position type operand isType isOperand
    exact each (type, operand)
      (List.mem_of_getElem? (List.getElem?_zip_eq_some.mpr ⟨isType, isOperand⟩))
  · rintro each ⟨type, operand⟩ member
    obtain ⟨position, here⟩ := List.mem_iff_getElem?.mp member
    obtain ⟨isType, isOperand⟩ := List.getElem?_zip_eq_some.mp here
    exact each position type operand isType isOperand

/-! ### Accepting all operands but one -/

/-- There are as many operands as types, and every operand but the one at `position` can stand in
the position of its type. -/
structure AcceptsBeside (f : Form) (operands : List Operand) (position : Nat) : Prop where
  count : operands.length = f.operands.length
  accepts : ∀ other, other ≠ position → ∀ type operand, f.operands[other]? = some type →
    operands[other]? = some operand → type.accepts f.operandBits operand.value = true

/-- All that keeps the form from accepting the operands is the number in its value field. -/
structure MissesBy (f : Form) (operands : List Operand) (position : Nat) (type : OperandType)
    (width : Width) (z : Integer) : Prop where
  beside : f.AcceptsBeside operands position
  isType : f.operands[position]? = some type
  isValue : type.valueWidth? = some width
  isInteger : IntegerAt operands position z

theorem exists_type_of_integerAt {z : Integer} (isInteger : IntegerAt operands position z)
    (count : operands.length = f.operands.length) :
    ∃ type, f.operands[position]? = some type := by
  obtain ⟨operand, here, -⟩ := isInteger
  obtain ⟨inside, -⟩ := List.getElem?_eq_some_iff.mp here
  exact ⟨_, List.getElem?_eq_getElem (count ▸ inside)⟩

theorem acceptsOperands_replaceInteger_iff {old : Integer}
    (isInteger : IntegerAt operands position old) (new : Integer) :
    f.acceptsOperands (replaceInteger operands position new) = true ↔
      ∃ type width, f.MissesBy operands position type width old ∧
        type.accepts f.operandBits (.integer new) = true := by
  have length : (replaceInteger operands position new).length = operands.length :=
    List.length_modify ..
  obtain ⟨placed, atPosition, placedValue⟩ := isInteger.replace new
  rw [acceptsOperands_iff_getElem?, length]
  constructor
  · rintro ⟨count, each⟩
    obtain ⟨type, isType⟩ := exists_type_of_integerAt isInteger count
    have accepted := each position type placed isType atPosition
    rw [placedValue] at accepted
    obtain ⟨width, isValue⟩ := OperandType.exists_valueWidth?_of_accepts accepted
    refine ⟨type, width, ⟨⟨count, ?_⟩, isType, isValue, isInteger⟩, accepted⟩
    intro other different otherType operand isOther isOperand
    refine each other otherType operand isOther ?_
    rw [getElem?_replaceInteger_of_ne operands different]
    exact isOperand
  · rintro ⟨type, width, misses, accepted⟩
    refine ⟨misses.beside.count, ?_⟩
    intro other otherType operand isOther isOperand
    by_cases same : other = position
    · subst same
      cases misses.isType.symm.trans isOther
      cases atPosition.symm.trans isOperand
      rw [placedValue]
      exact accepted
    · rw [getElem?_replaceInteger_of_ne operands same] at isOperand
      exact misses.beside.accepts other same otherType operand isOther isOperand

/-! ### Near misses -/

theorem valuePair?_eq_some_iff {type : OperandType} {operand : Operand} {z : Integer}
    {width : Width} :
    valuePair? type operand = some (z, width) ↔
      type.valueWidth? = some width ∧ operand.value = .integer z := by
  unfold valuePair?
  cases type.valueWidth? with
  | none => simp
  | some fieldWidth =>
      cases operand.value with
      | integer value => simp [and_comm]
      | _ => simp

theorem Checked.value_unique (checked : f.Checked) {first second : Nat} {type other : OperandType}
    {width otherWidth : Width} (isType : f.operands[first]? = some type)
    (isValue : type.valueWidth? = some width) (isOther : f.operands[second]? = some other)
    (isOtherValue : other.valueWidth? = some otherWidth) : first = second := by
  obtain ⟨only, values⟩ :=
    List.length_eq_one_iff.mp (checked.values_eq (List.mem_of_getElem? isType) isValue).1
  have apart : f.operands.Pairwise fun a b => a.isValue = true → b.isValue = true → False := by
    apply List.pairwise_filter.mp
    change f.values.Pairwise _
    rw [values]
    exact List.pairwise_singleton _ _
  rw [List.pairwise_iff_getElem] at apart
  obtain ⟨insideFirst, rfl⟩ := List.getElem?_eq_some_iff.mp isType
  obtain ⟨insideSecond, rfl⟩ := List.getElem?_eq_some_iff.mp isOther
  have firstValue := OperandType.isValue_of_valueWidth? isValue
  have secondValue := OperandType.isValue_of_valueWidth? isOtherValue
  rcases Nat.lt_trichotomy first second with before | same | after
  · exact (apart _ _ insideFirst insideSecond before firstValue secondValue).elim
  · exact same
  · exact (apart _ _ insideSecond insideFirst after secondValue firstValue).elim

theorem MissesBy.position_eq {type : OperandType} {width : Width} {z : Integer}
    (misses : f.MissesBy operands position type width z) (checked : f.Checked) {other : Nat}
    {otherValue : Integer} (isInteger : IntegerAt operands other otherValue) :
    other = position := by
  by_contra different
  obtain ⟨otherType, isOther⟩ := exists_type_of_integerAt isInteger misses.beside.count
  obtain ⟨operand, here, value⟩ := isInteger
  have accepted := misses.beside.accepts other different otherType operand isOther here
  rw [value] at accepted
  obtain ⟨otherWidth, isOtherValue⟩ := OperandType.exists_valueWidth?_of_accepts accepted
  exact different
    (checked.value_unique isOther isOtherValue misses.isType misses.isValue)

theorem exists_missesBy_of_nearMiss? (checked : f.Checked) {miss : NearMiss}
    (missed : f.nearMiss? operands = some miss) :
    ∃ position type, f.MissesBy operands position type miss.width miss.value ∧
      miss.signed = (type.isRelative || OperandType.isSignExtended miss.width f.operandBits) := by
  unfold nearMiss? at missed
  dsimp only at missed
  split at missed
  · cases missed
  · rename_i count
    split at missed
    · rename_i fits
      have member := List.mem_of_getLast? missed
      obtain ⟨⟨type, operand⟩, inPairs, reported⟩ := List.mem_filterMap.mp member
      obtain ⟨⟨z, width⟩, isPair, rfl⟩ := Option.map_eq_some_iff.mp reported
      obtain ⟨isValue, isInteger⟩ := valuePair?_eq_some_iff.mp isPair
      obtain ⟨position, here⟩ := List.mem_iff_getElem?.mp inPairs
      obtain ⟨isType, isOperand⟩ := List.getElem?_zip_eq_some.mp here
      refine ⟨position, type, ⟨⟨not_not.mp count, ?_⟩, isType, isValue, operand, isOperand,
        isInteger⟩, rfl⟩
      intro other different otherType otherOperand isOther isOtherOperand
      have fitsHere := List.all_eq_true.mp fits (otherType, otherOperand)
        (List.mem_of_getElem? (List.getElem?_zip_eq_some.mpr ⟨isOther, isOtherOperand⟩))
      rcases Bool.or_eq_true_iff.mp fitsHere with isPair | accepted
      · obtain ⟨⟨otherValue, otherWidth⟩, isPair⟩ := Option.isSome_iff_exists.mp isPair
        obtain ⟨isOtherValue, -⟩ := valuePair?_eq_some_iff.mp isPair
        exact absurd (checked.value_unique isOther isOtherValue isType isValue) different
      · exact accepted
    · cases missed

theorem MissesBy.exists_nearMiss {type : OperandType} {width : Width} {z : Integer}
    (misses : f.MissesBy operands position type width z) :
    ∃ miss, f.nearMiss? operands = some miss := by
  obtain ⟨⟨count, accepts⟩, isType, isValue, operand, here, value⟩ := misses
  have isPair : valuePair? type operand = some (z, width) :=
    valuePair?_eq_some_iff.mpr ⟨isValue, value⟩
  have fits : (f.operands.zip operands).all (fun pair =>
      (valuePair? pair.1 pair.2).isSome || pair.1.accepts f.operandBits pair.2.value) = true := by
    rw [List.all_eq_true]
    rintro ⟨otherType, otherOperand⟩ member
    obtain ⟨other, isBoth⟩ := List.mem_iff_getElem?.mp member
    obtain ⟨isOther, isOtherOperand⟩ := List.getElem?_zip_eq_some.mp isBoth
    rw [Bool.or_eq_true]
    by_cases same : other = position
    · subst same
      cases isType.symm.trans isOther
      cases here.symm.trans isOtherOperand
      exact Or.inl (by rw [isPair]; rfl)
    · exact Or.inr (accepts other same otherType otherOperand isOther isOtherOperand)
  have inPairs : (type, operand) ∈ f.operands.zip operands :=
    List.mem_of_getElem? (List.getElem?_zip_eq_some.mpr ⟨isType, here⟩)
  unfold nearMiss?
  dsimp only
  rw [if_neg (not_not.mpr count), if_pos fits, ← Option.isSome_iff_exists, List.getLast?_isSome]
  apply List.ne_nil_of_mem
  exact List.mem_filterMap.mpr ⟨_, inPairs, by rw [isPair]; rfl⟩

end Form

namespace Catalog

/-! ### The widest near miss -/

def nearMisses (c : Catalog) (mnemonic : Text) (operands : List Operand) : List Form.NearMiss :=
  (c.filter fun entry => entry.form.hasMnemonic mnemonic).filterMap fun entry =>
    entry.form.nearMiss? operands

/-- The first of two near misses, unless the second one is wider. -/
def wider : Option Form.NearMiss → Form.NearMiss → Option Form.NearMiss
  | none, miss => some miss
  | some best, miss => if best.width.bits < miss.width.bits then some miss else some best

theorem widestNearMiss?_eq_foldl (c : Catalog) (mnemonic : Text) (operands : List Operand) :
    c.widestNearMiss? mnemonic operands = (c.nearMisses mnemonic operands).foldl wider none := by
  unfold widestNearMiss? nearMisses
  generalize (none : Option Form.NearMiss) = widest
  induction c generalizing widest with
  | nil => rfl
  | cons entry rest inductionHypothesis =>
      rw [List.foldl_cons, List.filter_cons, inductionHypothesis]
      split
      · rw [List.filterMap_cons]
        cases entry.form.nearMiss? operands with
        | none => rfl
        | some miss => cases widest <;> rfl
      · rfl

/-- What the widest of some near misses is. -/
def IsWidest (misses : List Form.NearMiss) : Option Form.NearMiss → Prop
  | none => misses = []
  | some best => best ∈ misses ∧ ∀ miss ∈ misses, miss.width.bits ≤ best.width.bits

theorem IsWidest.append {misses : List Form.NearMiss} {best : Option Form.NearMiss}
    (widest : IsWidest misses best) (miss : Form.NearMiss) :
    IsWidest (misses ++ [miss]) (wider best miss) := by
  cases best with
  | none =>
      cases widest
      exact ⟨by simp, by simp⟩
  | some best =>
      obtain ⟨member, bound⟩ := widest
      rw [wider]
      split
      · rename_i larger
        refine ⟨by simp, List.forall_mem_append.mpr ⟨?_, by simp⟩⟩
        intro other inMisses
        exact Nat.le_trans (bound other inMisses) (Nat.le_of_lt larger)
      · rename_i notLarger
        refine ⟨List.mem_append_left _ member, List.forall_mem_append.mpr ⟨bound, ?_⟩⟩
        intro other isMiss
        cases List.mem_singleton.mp isMiss
        exact Nat.le_of_not_lt notLarger

theorem IsWidest.foldl {seen : List Form.NearMiss} {best : Option Form.NearMiss}
    (widest : IsWidest seen best) (misses : List Form.NearMiss) :
    IsWidest (seen ++ misses) (misses.foldl wider best) := by
  induction misses generalizing seen best with
  | nil =>
      rw [List.append_nil]
      exact widest
  | cons miss rest inductionHypothesis =>
      have next := inductionHypothesis (widest.append miss)
      rwa [List.append_assoc, List.singleton_append] at next

theorem isWidest_widestNearMiss? (c : Catalog) (mnemonic : Text) (operands : List Operand) :
    IsWidest (c.nearMisses mnemonic operands) (c.widestNearMiss? mnemonic operands) := by
  have start : IsWidest [] none := rfl
  rw [widestNearMiss?_eq_foldl]
  exact start.foldl _

/-! ### Range errors -/

section Errors

variable {c : Catalog} {mnemonic : Text} {operands : List Operand}

theorem mem_nearMisses_iff {miss : Form.NearMiss} :
    miss ∈ c.nearMisses mnemonic operands ↔
      ∃ entry ∈ c, entry.form.hasMnemonic mnemonic = true ∧
        entry.form.nearMiss? operands = some miss := by
  simp only [nearMisses, List.mem_filterMap, List.mem_filter, and_assoc]

theorem isSome_lookup?_iff :
    (c.lookup? mnemonic operands).isSome = true ↔
      ∃ entry ∈ c, entry.form.hasMnemonic mnemonic = true ∧
        entry.form.acceptsOperands operands = true := by
  simp only [lookup?, List.find?_isSome, Form.accepts, Bool.and_eq_true]

/-- Replacing an integer helps exactly if a form misses the instruction by it and takes the new
one. -/
theorem isSome_lookup?_replaceInteger_iff {position : Nat} {old : Integer}
    (isInteger : IntegerAt operands position old) (new : Integer) :
    (c.lookup? mnemonic (replaceInteger operands position new)).isSome = true ↔
      ∃ entry ∈ c, entry.form.hasMnemonic mnemonic = true ∧
        ∃ type width, entry.form.MissesBy operands position type width old ∧
          type.accepts entry.form.operandBits (.integer new) = true := by
  simp only [isSome_lookup?_iff, Form.acceptsOperands_replaceInteger_iff isInteger]

/-- A range error comes from a form that misses the instruction by an integer, and gives the range
of its field. -/
theorem exists_missesBy_of_diagnose (checked : ∀ entry ∈ c, entry.form.Checked) {e : RangeError}
    (diagnosed : c.diagnose mnemonic operands = .range e) :
    ∃ entry ∈ c, entry.form.hasMnemonic mnemonic = true ∧
      ∃ position type width, entry.form.MissesBy operands position type width e.value ∧
        e = .ofWidth mnemonic e.value width
          (type.isRelative || OperandType.isSignExtended width entry.form.operandBits) := by
  unfold diagnose at diagnosed
  split at diagnosed
  · cases diagnosed
  · split at diagnosed
    · rename_i miss widest
      have isWidest := c.isWidest_widestNearMiss? mnemonic operands
      rw [widest] at isWidest
      obtain ⟨entry, inCatalog, named, missed⟩ := mem_nearMisses_iff.mp isWidest.1
      obtain ⟨position, type, misses, signed⟩ :=
        Form.exists_missesBy_of_nearMiss? (checked entry inCatalog) missed
      cases diagnosed
      refine ⟨entry, inCatalog, named, position, type, miss.width, misses, ?_⟩
      rw [← signed]
      rfl
    · cases diagnosed

theorem exists_diagnose_eq_range (known : c.hasMnemonic mnemonic = true)
    (missed : c.nearMisses mnemonic operands ≠ []) :
    ∃ e, c.diagnose mnemonic operands = .range e := by
  unfold diagnose
  rw [known]
  cases widest : c.widestNearMiss? mnemonic operands with
  | none =>
      have isWidest := c.isWidest_widestNearMiss? mnemonic operands
      rw [widest] at isWidest
      exact absurd isWidest missed
  | some miss => exact ⟨_, rfl⟩

end Errors

/-- If no form accepts an instruction, it is reported to be out of range exactly if it would be
accepted with another integer in the place of one of its operands.  The report names that operand's
value, which does not lie in the range that is given with it, while every integer of the range would
be accepted in its place. -/
theorem range_errors_are_right {c : Catalog}
    (accepted : (∃ text, Catalog.parse text = .ok c) ∨ c = standard) {mnemonic : Text}
    {operands : List Operand} (known : c.hasMnemonic mnemonic = true)
    (unmatched : c.lookup? mnemonic operands = none) :
    ((∃ e, c.diagnose mnemonic operands = .range e) ↔
      ∃ position old new, IntegerAt operands position old ∧
        (c.lookup? mnemonic (replaceInteger operands position new)).isSome = true) ∧
    ∀ e, c.diagnose mnemonic operands = .range e → e.name = mnemonic ∧
      ∀ position old new, IntegerAt operands position old →
        (c.lookup? mnemonic (replaceInteger operands position new)).isSome = true →
        e.value = old ∧ ¬ (e.least ≤ old.value ∧ old.value ≤ e.greatest) ∧
          ∀ within : Integer, e.least ≤ within.value → within.value ≤ e.greatest →
            (c.lookup? mnemonic (replaceInteger operands position within)).isSome = true := by
  have checked : ∀ entry ∈ c, entry.form.Checked := by
    rcases accepted with ⟨text, parsed⟩ | rfl
    · exact checked_of_parseLines parsed (by simp)
    · exact checked_standard
  refine ⟨⟨?_, ?_⟩, ?_⟩
  · rintro ⟨e, diagnosed⟩
    obtain ⟨entry, inCatalog, named, position, type, width, misses, range⟩ :=
      exists_missesBy_of_diagnose checked diagnosed
    refine ⟨position, e.value, ⟨false, 0⟩, misses.isInteger, ?_⟩
    rw [isSome_lookup?_replaceInteger_iff misses.isInteger]
    exact ⟨entry, inCatalog, named, type, width, misses, OperandType.accepts_zero misses.isValue _⟩
  · rintro ⟨position, old, new, isInteger, found⟩
    obtain ⟨entry, inCatalog, named, type, width, misses, -⟩ :=
      (isSome_lookup?_replaceInteger_iff isInteger new).mp found
    obtain ⟨miss, missed⟩ := misses.exists_nearMiss
    exact exists_diagnose_eq_range known
      (List.ne_nil_of_mem (mem_nearMisses_iff.mpr ⟨entry, inCatalog, named, missed⟩))
  · intro e diagnosed
    obtain ⟨entry, inCatalog, named, position, type, width, misses, range⟩ :=
      exists_missesBy_of_diagnose checked diagnosed
    refine ⟨by rw [range]; rfl, ?_⟩
    intro other old new isInteger found
    obtain rfl := misses.position_eq (checked entry inCatalog) isInteger
    obtain rfl := misses.isInteger.unique isInteger
    have inRange (within : Integer) (low : e.least ≤ within.value)
        (high : within.value ≤ e.greatest) :
        (c.lookup? mnemonic (replaceInteger operands other within)).isSome = true := by
      rw [isSome_lookup?_replaceInteger_iff isInteger]
      exact ⟨entry, inCatalog, named, type, width, misses,
        (OperandType.accepts_integer_iff_in_range misses.isValue _ _ _ _ range).mpr ⟨low, high⟩⟩
    refine ⟨rfl, ?_, inRange⟩
    rintro ⟨low, high⟩
    have found := inRange e.value low high
    rw [isInteger.replace_self, unmatched] at found
    cases found

def sampleForms : Text := ascii "ADD reg/mem64 imm8, 83 /0 ib\nADD reg/mem64 imm32, 81 /0 id"

/-- The least number that a sign-extended field of 32 bits does not hold. -/
def sampleTooLarge : List Operand :=
  [⟨ascii "rax", .register (.general .qword 0)⟩, ⟨ascii "0x80000000", .integer ⟨false, 0x80000000⟩⟩]

theorem range_errors_are_right_sample :
    ∃ c, Catalog.parse sampleForms = .ok c ∧ c.hasMnemonic (ascii "add") = true ∧
      c.lookup? (ascii "add") sampleTooLarge = none ∧
      ∃ e, c.diagnose (ascii "add") sampleTooLarge = .range e ∧ e.value = ⟨false, 0x80000000⟩ ∧
        ∀ within : Integer, e.least ≤ within.value → within.value ≤ e.greatest →
          (c.lookup? (ascii "add") (replaceInteger sampleTooLarge 1 within)).isSome = true := by
  have evaluated : (Catalog.parse sampleForms).toOption.map (fun c =>
      (c.hasMnemonic (ascii "add"), (c.lookup? (ascii "add") sampleTooLarge).isSome,
        (c.lookup? (ascii "add") (replaceInteger sampleTooLarge 1 ⟨true, 1⟩)).isSome)) =
      some (true, false, true) := by decide +kernel
  simp only [Option.map_eq_some_iff, toOption_eq_some_iff, Prod.mk.injEq,
    Option.isSome_eq_false_iff, Option.isNone_iff_eq_none] at evaluated
  obtain ⟨c, parsed, known, unmatched, found⟩ := evaluated
  have isInteger : IntegerAt sampleTooLarge 1 ⟨false, 0x80000000⟩ := ⟨_, rfl, rfl⟩
  obtain ⟨reported, right⟩ := range_errors_are_right (Or.inl ⟨_, parsed⟩) known unmatched
  obtain ⟨e, diagnosed⟩ := reported.mpr ⟨1, _, _, isInteger, found⟩
  obtain ⟨value, -, within⟩ := (right e diagnosed).2 1 _ _ isInteger found
  exact ⟨c, parsed, known, unmatched, e, diagnosed, value, within⟩

end Catalog

end Asm64
