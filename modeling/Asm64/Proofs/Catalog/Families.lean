import Mathlib.Data.List.SplitBy
import Mathlib.Tactic
import Asm64.Catalog.Default

/-!
# Families of forms

The forms of the default catalog that have the same mnemonic and as many operands stand next to
each other.  They are a family: only forms of one family compete for an instruction.  So what is
to be shown of the order of the catalog is decided family by family.
-/

namespace Asm64

namespace Form

/-- Forms that can accept the same instruction have the same number. -/
def familyNumber (f : Form) : Nat :=
  f.operands.length + 4 * ofLittleEndian (Text.foldCase f.mnemonic)

theorem length_of_accepts {f : Form} {mnemonic : Text} {operands : List Operand}
    (accepted : f.accepts mnemonic operands = true) : f.operands.length = operands.length := by
  simp only [accepts, acceptsOperands, Bool.and_eq_true, beq_iff_eq] at accepted
  exact accepted.2.1.symm

theorem hasMnemonic_of_accepts {f : Form} {mnemonic : Text} {operands : List Operand}
    (accepted : f.accepts mnemonic operands = true) : f.hasMnemonic mnemonic = true :=
  (Bool.and_eq_true_iff.mp accepted).1

theorem familyNumber_eq {f : Form} {mnemonic : Text} (named : f.hasMnemonic mnemonic = true) :
    f.familyNumber = f.operands.length + 4 * ofLittleEndian (Text.foldCase mnemonic) := by
  rw [hasMnemonic, Text.equalFold, beq_iff_eq] at named
  rw [familyNumber, named]

end Form

namespace Catalog

def families : List (List Form) :=
  defaultForms.splitBy fun f g => f.familyNumber == g.familyNumber

theorem flatten_families : families.flatten = defaultForms := List.flatten_splitBy _ _

def numberOf (family : List Form) : Nat := (family.head?.map (·.familyNumber)).getD 0

theorem numberOf_eq {family : List Form} (isFamily : family ∈ families) {f : Form}
    (inFamily : f ∈ family) : numberOf family = f.familyNumber := by
  have numbers : (family.map (·.familyNumber)).IsChain Eq := by
    rw [List.isChain_map]
    exact (List.isChain_of_mem_splitBy isFamily).imp fun _ _ same => beq_iff_eq.mp same
  cases family with
  | nil => cases inFamily
  | cons first rest =>
      rcases List.mem_cons.mp inFamily with rfl | later
      · rfl
      · have all := (List.pairwise_cons.mp numbers.pairwise).1
        exact all _ (List.mem_map_of_mem later)

theorem nodup_numbers : (families.map numberOf).Nodup := by decide +kernel

theorem family_unique {family other : List Form} (isFamily : family ∈ families)
    (isOther : other ∈ families) {f g : Form} (inFamily : f ∈ family) (inOther : g ∈ other)
    (same : f.familyNumber = g.familyNumber) : family = other := by
  apply List.inj_on_of_nodup_map nodup_numbers isFamily isOther
  rw [numberOf_eq isFamily inFamily, numberOf_eq isOther inOther, same]

/-- Where in its family the form stands that is found for an instruction.  No form in front of it
accepts the instruction, and all forms that might accept it are in the family. -/
structure FoundIn (mnemonic : Text) (operands : List Operand) (before : List Form) (first : Form)
    (after : List Form) : Prop where
  isFamily : before ++ first :: after ∈ families
  accepted : first.accepts mnemonic operands = true
  rejected : ∀ f ∈ before, f.accepts mnemonic operands = false
  competitors : ∀ entry ∈ standard, entry.form.hasMnemonic mnemonic = true →
    entry.form.operands.length = operands.length → entry.form ∈ before ++ first :: after

theorem exists_foundIn {mnemonic : Text} {operands : List Operand} {first : Entry}
    (found : standard.lookup? mnemonic operands = some first) :
    ∃ before after, FoundIn mnemonic operands before first.form after := by
  rw [lookup?, standard, List.find?_map, Option.map_eq_some_iff] at found
  obtain ⟨f, isFirst, rfl⟩ := found
  have inFamilies : families.flatten.find? (fun f => f.accepts mnemonic operands) = some f := by
    rw [flatten_families]
    exact isFirst
  rw [List.find?_flatten] at inFamilies
  obtain ⟨family, isFamily, found⟩ := List.exists_of_findSome?_eq_some inFamilies
  obtain ⟨accepted, before, after, rfl, rejected⟩ := List.find?_eq_some_iff_append.mp found
  refine ⟨before, after, isFamily, accepted, ?_, ?_⟩
  · intro other earlier
    have isRejected := rejected other earlier
    rwa [Bool.not_eq_true'] at isRejected
  · intro entry inCatalog named count
    obtain ⟨g, inForms, rfl⟩ := List.mem_map.mp inCatalog
    rw [← flatten_families] at inForms
    obtain ⟨other, isOther, inOther⟩ := List.mem_flatten.mp inForms
    have same : f.familyNumber = (Entry.ofForm g).form.familyNumber := by
      rw [Form.familyNumber_eq (Form.hasMnemonic_of_accepts accepted), Form.familyNumber_eq named,
        Form.length_of_accepts accepted, count]
    have sameFamily := family_unique isFamily isOther List.mem_append_cons_self inOther same
    change g ∈ before ++ f :: after
    rw [sameFamily]
    exact inOther

end Catalog

end Asm64
