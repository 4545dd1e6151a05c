import Asm64.Proofs.Assembler.Accumulation
import Asm64.Proofs.Assembler.Visibility
import Asm64.Proofs.Directive.InPlace
import Asm64.Proofs.Integer.Literal
import Asm64.Proofs.Text.Words

/-!
# What built-in directives do

A built-in directive changes one thing about an object or nothing at all.  A data directive accepts
literals whose values are in the signed or the unsigned range of its width, and adds the bytes of
each value modulo the size of a field.
-/

namespace Asm64

namespace Integer

def Denotes (t : Text) (z : Int) : Prop :=
  ∃ negative n, Spells negative n t ∧ z = if negative then -(n : Int) else n

theorem denotes_of_parse? {t : Text} {i : Integer} (parsed : parse? t = some i) :
    Denotes t i.value := by
  obtain ⟨negative, spells, sign⟩ := parse?_eq_some_iff.mp parsed
  refine ⟨negative, _, spells, ?_⟩
  rw [value]
  cases negative with
  | false =>
      have nonnegative : ¬ i.negative = true := fun isNegative =>
        Bool.false_ne_true (sign.mp isNegative).1
      rw [if_neg nonnegative, if_neg Bool.false_ne_true]
  | true =>
      by_cases isNegative : i.negative = true
      · rw [if_pos isNegative, if_pos rfl]
      · have zero : i.magnitude.toNat = 0 := by
          by_contra nonzero
          exact isNegative (sign.mpr ⟨rfl, nonzero⟩)
        rw [if_neg isNegative, if_pos rfl, zero]
        rfl

theorem exists_parse?_of_denotes {t : Text} {z : Int} (denotes : Denotes t z)
    (low : -2 ^ 64 < z) (high : z < 2 ^ 64) : ∃ i, parse? t = some i ∧ i.value = z := by
  obtain ⟨negative, n, spells, rfl⟩ := denotes
  have small : n < 2 ^ 64 := by
    cases negative <;> simp at low high <;> omega
  have magnitude : (UInt64.ofNat n).toNat = n := UInt64.toNat_ofNat_of_lt' small
  have parsed : parse? t = some ⟨negative && decide (n ≠ 0), UInt64.ofNat n⟩ :=
    parse?_eq_some_iff.mpr ⟨negative, by rwa [magnitude], by simp [magnitude]⟩
  refine ⟨_, parsed, ?_⟩
  rw [value, magnitude]
  cases negative with
  | false => rfl
  | true =>
      by_cases zero : n = 0
      · subst zero
        rfl
      · simp [zero]

end Integer

namespace Directive

open InPlace

/-! ### Data -/

def InRange (width : Width) (z : Int) : Prop :=
  -2 ^ (width.bits - 1) ≤ z ∧ z ≤ 2 ^ width.bits - 1

theorem exists_readValue_iff {name field : Text} {width : Width} {z : Int} :
    (∃ i, readValue name width field = .ok i ∧ i.value = z) ↔
      Integer.Denotes field z ∧ InRange width z := by
  have range (i : Integer) : i.fits width = true ↔ InRange width i.value := by
    rw [Integer.fits_iff, InRange, Int.le_sub_one_iff]
  simp only [Assembler.readValue_eq_ok_iff, Option.filter_eq_some_iff]
  constructor
  · rintro ⟨i, ⟨parsed, fits⟩, rfl⟩
    exact ⟨Integer.denotes_of_parse? parsed, (range i).mp fits⟩
  · rintro ⟨denotes, inRange⟩
    have bounds : -2 ^ 64 < z ∧ z < 2 ^ 64 := by
      obtain ⟨low, high⟩ := inRange
      cases width <;> simp only [Width.bits] at low high <;> omega
    obtain ⟨i, parsed, rfl⟩ := Integer.exists_parse?_of_denotes denotes bounds.1 bounds.2
    exact ⟨i, ⟨parsed, (range i).mpr inRange⟩, rfl⟩

/-- The values that are written in the arguments of a data directive, if it accepts them. -/
structure Lists (width : Width) (arguments : Text) (values : List Int) : Prop where
  nonempty : values ≠ []
  written : ∃ words, Text.HasWords arguments words ∧ List.Forall₂ Integer.Denotes words values
  inRange : ∀ z ∈ values, InRange width z

def Holds (width : Width) (z : Int) (field : List UInt8) : Prop :=
  8 * field.length = width.bits ∧ (ofLittleEndian field : Int) = z % 2 ^ width.bits

theorem exists_values_iff {name : Text} {width : Width} {words : List Text} {values : List Int} :
    (∃ read, words.mapM (readValue name width) = .ok read ∧ read.map (·.value) = values) ↔
      List.Forall₂ Integer.Denotes words values ∧ ∀ z ∈ values, InRange width z := by
  simp only [mapM_eq_ok_iff]
  induction words generalizing values with
  | nil =>
      constructor
      · rintro ⟨_, ⟨⟩, rfl⟩
        exact ⟨.nil, List.forall_mem_nil _⟩
      · rintro ⟨⟨⟩, -⟩
        exact ⟨[], .nil, rfl⟩
  | cons word rest inductionHypothesis =>
      constructor
      · rintro ⟨read, all, rfl⟩
        obtain ⟨i, others, here, later, rfl⟩ := List.forall₂_cons_left_iff.mp all
        obtain ⟨denotes, inRange⟩ := exists_readValue_iff.mp ⟨i, here, rfl⟩
        obtain ⟨restDenotes, restInRange⟩ := inductionHypothesis.mp ⟨others, later, rfl⟩
        exact ⟨.cons denotes restDenotes, List.forall_mem_cons.mpr ⟨inRange, restInRange⟩⟩
      · rintro ⟨all, inRange⟩
        obtain ⟨z, others, denotes, later, rfl⟩ := List.forall₂_cons_left_iff.mp all
        rw [List.forall_mem_cons] at inRange
        obtain ⟨i, here, rfl⟩ := exists_readValue_iff.mpr ⟨denotes, inRange.1⟩
        obtain ⟨read, restRead, rfl⟩ := inductionHypothesis.mpr ⟨later, inRange.2⟩
        exact ⟨i :: read, .cons here restRead, rfl⟩

theorem applyData_eq_ok_iff {name arguments : Text} {width : Width} {o changed : Object} :
    applyData name width o arguments = .ok changed ↔
      ∃ read, Text.fields arguments ≠ [] ∧
        (Text.fields arguments).mapM (readValue name width) = .ok read ∧
        changed = { o with code := o.code ++ dataBytes width read } := by
  unfold applyData
  cases Text.fields arguments with
  | nil => simp
  | cons field rest =>
      simp only [bind_eq_ok_iff, pure_eq_ok_iff, ne_eq, reduceCtorEq, not_false_eq_true, true_and,
        eq_comm (a := changed)]

/-- The words of the arguments are read one by one, whatever white space is around them. -/
theorem lists_iff (name : Text) {arguments : Text} {width : Width} {values : List Int} :
    Lists width arguments values ↔
      ∃ read, Text.fields (Text.trim arguments) ≠ [] ∧
        (Text.fields (Text.trim arguments)).mapM (readValue name width) = .ok read ∧
        read.map (·.value) = values := by
  rw [Text.fields_trim]
  constructor
  · rintro ⟨nonempty, ⟨words, has, denotes⟩, inRange⟩
    obtain ⟨read, ran, same⟩ := exists_values_iff.mpr ⟨denotes, inRange⟩
    rw [Text.fields_of_hasWords has]
    refine ⟨read, ?_, ran, same⟩
    rintro rfl
    exact nonempty (List.forall₂_nil_left_iff.mp denotes)
  · rintro ⟨read, nonempty, ran, same⟩
    obtain ⟨denotes, inRange⟩ := exists_values_iff.mp ⟨read, ran, same⟩
    refine ⟨?_, ⟨_, Text.fields_eq_iff.mp rfl, denotes⟩, inRange⟩
    rintro rfl
    exact nonempty (List.forall₂_nil_right_iff.mp denotes)

theorem forall₂_holds (width : Width) (read : List Integer) :
    List.Forall₂ (Holds width) (read.map (·.value))
      (read.map fun i => littleEndian width.bytes i.toUInt64.toNat) := by
  rw [List.forall₂_map_left_iff, List.forall₂_map_right_iff, List.forall₂_same]
  intro i _
  refine ⟨?_, Integer.unsigned_field i width⟩
  rw [length_littleEndian, Width.bits_eq]

theorem of_applyData {name arguments : Text} {width : Width} {o changed : Object}
    (applied : applyData name width o (Text.trim arguments) = .ok changed) {values : List Int}
    (lists : Lists width arguments values) :
    ∃ fields, List.Forall₂ (Holds width) values fields ∧
      changed = { o with code := o.code ++ fields.flatten } := by
  obtain ⟨read, -, ran, rfl⟩ := applyData_eq_ok_iff.mp applied
  obtain ⟨same, -, ranAgain, rfl⟩ := (lists_iff name).mp lists
  obtain rfl : read = same := Except.ok.inj (ran.symm.trans ranAgain)
  refine ⟨_, forall₂_holds width read, ?_⟩
  rw [dataBytes, List.flatMap_def]

theorem exists_applyData_iff {name arguments : Text} {width : Width} {o : Object} :
    (∃ changed, applyData name width o (Text.trim arguments) = .ok changed) ↔
      ∃ values, Lists width arguments values := by
  constructor
  · rintro ⟨changed, applied⟩
    obtain ⟨read, nonempty, ran, -⟩ := applyData_eq_ok_iff.mp applied
    exact ⟨_, (lists_iff name).mpr ⟨read, nonempty, ran, rfl⟩⟩
  · rintro ⟨values, lists⟩
    obtain ⟨read, nonempty, ran, -⟩ := (lists_iff name).mp lists
    exact ⟨_, applyData_eq_ok_iff.mpr ⟨read, nonempty, ran, rfl⟩⟩

/-! ### Labels -/

/-- Whether the first label of a name has been made public, and nothing else has changed. -/
def Publishes (name : Text) (labels published : List Label) : Prop :=
  ∃ front l back, labels = front ++ l :: back ∧ (∀ other ∈ front, other.name ≠ name) ∧
    l.name = name ∧ published = front ++ { l with isPublic := true } :: back

theorem publishes_of_publish {name : Text} {labels published : List Label}
    (found : publish name labels = some published) : Publishes name labels published := by
  induction labels generalizing published with
  | nil => cases found
  | cons l rest inductionHypothesis =>
      by_cases named : l.name = name
      · rw [publish_of_eq named] at found
        cases found
        exact ⟨[], l, rest, rfl, List.forall_mem_nil _, named, rfl⟩
      · rw [publish_of_ne named] at found
        obtain ⟨later, foundLater, rfl⟩ := Option.map_eq_some_iff.mp found
        obtain ⟨front, first, back, rfl, others, same, rfl⟩ := inductionHypothesis foundLater
        exact ⟨l :: front, first, back, rfl, List.forall_mem_cons.mpr ⟨named, others⟩, same, rfl⟩

theorem of_applyGlobal {arguments : Text} {o changed : Object}
    (applied : applyGlobal o arguments = .ok changed) :
    changed.code = o.code ∧ changed.relocations = o.relocations ∧
      Publishes arguments o.labels changed.labels := by
  unfold applyGlobal at applied
  split at applied
  · cases applied
  · split at applied
    · rename_i labels found
      cases applied
      exact ⟨rfl, rfl, publishes_of_publish found⟩
    · cases applied

/-! ### Padding -/

theorem paddingFor_isLeast (length : Nat) :
    IsLeast { count | 16 ∣ length + count } (paddingFor 16 length) := by
  unfold paddingFor
  constructor
  · rw [Set.mem_ofPred_eq]
    omega
  · intro count aligned
    rw [Set.mem_ofPred_eq] at aligned
    omega

/-! ### Whole directives -/

theorem error_ofExcept_eq_none_iff {name : Text} {o : Object} {result : Except Flaw Object} :
    (Outcome.ofExcept name o result).error = none ↔ ∃ changed, result = .ok changed := by
  cases result <;> simp [Outcome.ofExcept]

theorem object_of_error_eq_none {name : Text} {o : Object} {result : Except Flaw Object}
    (succeeded : (Outcome.ofExcept name o result).error = none) :
    result = .ok (Outcome.ofExcept name o result).object := by
  obtain ⟨changed, rfl⟩ := error_ofExcept_eq_none_iff.mp succeeded
  rfl

theorem lookup?_nil_of_builtin {custom : List (Text × CustomDirective)} {name : Text}
    {d : Directive} (known : lookup? custom name = some d)
    (builtin : ∀ run, d.action ≠ .custom run) : lookup? [] name = some d := by
  rcases Assembler.lookup?_eq_some known with found | ⟨-, run, rfl⟩
  · exact found
  · exact absurd rfl (builtin run)

theorem lookup?_data (custom : List (Text × CustomDirective)) (width : Width) :
    lookup? custom (ascii "db" ++ Text.decimal width.bits) =
      some ⟨ascii "db" ++ Text.decimal width.bits, .data width⟩ := by
  rw [Integer.decimal_eq]
  cases width <;> rfl

section

variable {name arguments : Text} {width : Width} {o : Object}

theorem error_apply_data_eq_none_iff :
    (apply ⟨name, .data width⟩ o arguments).error = none ↔ ∃ values, Lists width arguments values :=
  error_ofExcept_eq_none_iff.trans exists_applyData_iff

theorem object_apply_data {values : List Int} (lists : Lists width arguments values) :
    ∃ fields, List.Forall₂ (Holds width) values fields ∧
      (apply ⟨name, .data width⟩ o arguments).object =
        { o with code := o.code ++ fields.flatten } := by
  have succeeded : (apply ⟨name, .data width⟩ o arguments).error = none :=
    error_apply_data_eq_none_iff.mpr ⟨values, lists⟩
  exact of_applyData (object_of_error_eq_none succeeded) lists

theorem error_apply_align_eq_none_iff {alignment : Nat} :
    (apply ⟨name, .align alignment⟩ o arguments).error = none ↔ Text.trim arguments = [] := by
  simp only [apply, applyAlign]
  cases Text.trim arguments <;> simp [Outcome.ofExcept]

theorem object_apply_align (plain : Text.trim arguments = []) :
    ∃ count, IsLeast { n | 16 ∣ o.code.length + n } count ∧
      (apply ⟨name, .align 16⟩ o arguments).object =
        { o with code := o.code ++ List.replicate count 0 } := by
  refine ⟨_, paddingFor_isLeast o.code.length, ?_⟩
  simp only [apply, applyAlign, plain]
  rfl

end

/-- What has become of an object when a built-in directive has succeeded. -/
structure Applied (name arguments : Text) (o changed : Object) : Prop where
  relocations : changed.relocations = o.relocations
  global : name = ascii "global" →
    changed.code = o.code ∧ Publishes (Text.trim arguments) o.labels changed.labels
  other : name ≠ ascii "global" → changed.labels = o.labels ∧ o.code <+: changed.code

theorem applied_of_builtin {name arguments : Text} {d : Directive} {o : Object}
    (known : lookup? [] name = some d) (succeeded : (d.apply o arguments).error = none) :
    Applied name arguments o (d.apply o arguments).object := by
  by_cases global : d.action = .global
  · have named := (Assembler.action_eq_global_iff known).mp global
    unfold apply at succeeded ⊢
    simp only [global] at succeeded ⊢
    obtain ⟨code, relocations, publishes⟩ := of_applyGlobal (object_of_error_eq_none succeeded)
    exact ⟨relocations, fun _ => ⟨code, publishes⟩, fun different => absurd named different⟩
  · have different := mt (Assembler.action_eq_global_iff known).mpr global
    obtain ⟨bytes, -, changed⟩ := Assembler.apply_eq_append known global succeeded
    rw [changed]
    exact ⟨rfl, fun named => absurd named different, fun _ => ⟨rfl, List.prefix_append _ _⟩⟩

/-- A built-in directive that fails changes nothing, wherever it fails.  One that succeeds leaves
the relocations as they are; `.global` makes the first label of its name public, and the others
leave the labels and add to the code.  A data directive succeeds if it is given values, literals in
the signed or the unsigned range of its width, and adds a field for each of them in their order.
`.align16` adds no more zeros than it takes to come to a multiple of sixteen. -/
theorem builtin_directives_are_exact (custom : List (Text × CustomDirective)) (o : Object)
    (arguments : Text) :
    (∀ d : Directive, runOn (d.applyInPlace arguments) o =
      ((d.apply o arguments).result, (d.apply o arguments).object)) ∧
    (∀ name d, lookup? custom name = some d → (∀ run, d.action ≠ .custom run) →
      (∀ e, (d.apply o arguments).error = some e → (d.apply o arguments).object = o) ∧
      ((d.apply o arguments).error = none →
        Applied name arguments o (d.apply o arguments).object)) ∧
    (∀ width : Width, ∃ d, lookup? custom (ascii "db" ++ Text.decimal width.bits) = some d ∧
      ((d.apply o arguments).error = none ↔ ∃ values, Lists width arguments values) ∧
      ∀ values, Lists width arguments values →
        ∃ fields, List.Forall₂ (Holds width) values fields ∧
          (d.apply o arguments).object = { o with code := o.code ++ fields.flatten }) ∧
    ∃ d, lookup? custom (ascii "align16") = some d ∧
      ((d.apply o arguments).error = none ↔ Text.trim arguments = []) ∧
      ((d.apply o arguments).error = none →
        ∃ count, IsLeast { n | 16 ∣ o.code.length + n } count ∧
          (d.apply o arguments).object =
            { o with code := o.code ++ List.replicate count 0 }) := by
  refine ⟨fun d => runOn_applyInPlace d arguments o, ?_, ?_, ?_⟩
  · intro name d known builtin
    have found := lookup?_nil_of_builtin known builtin
    exact ⟨fun e failed => Assembler.object_of_apply_error found failed, applied_of_builtin found⟩
  · intro width
    exact ⟨_, lookup?_data custom width, error_apply_data_eq_none_iff,
      fun values lists => object_apply_data lists⟩
  · exact ⟨⟨ascii "align16", .align 16⟩, rfl, error_apply_align_eq_none_iff,
      fun succeeded => object_apply_align (error_apply_align_eq_none_iff.mp succeeded)⟩

/-- Two labels of one name, and a relocation. -/
def sampleTarget : Object :=
  ⟨[0xC3], [⟨ascii "f", 0, false⟩, ⟨ascii "f", 1, false⟩], [⟨ascii "g", 0, 1, 1, true⟩]⟩

/-- The second value is too large for a byte.  The least and the greatest value fit a word, with
white space of several kinds around them.  The first of the two labels becomes public. -/
theorem builtin_directives_are_exact_sample :
    (∃ e, (apply ⟨ascii "db8", .data .byte⟩ sampleTarget (ascii "1 256")).error = some e ∧
      (apply ⟨ascii "db8", .data .byte⟩ sampleTarget (ascii "1 256")).object = sampleTarget) ∧
    (∃ d fields, lookup? [] (ascii "db" ++ Text.decimal Width.word.bits) = some d ∧
      List.Forall₂ (Holds .word) [-32768, 65535] fields ∧
      (d.apply sampleTarget (ascii "\t-0x8000 " ++ [0xC2, 0xA0] ++ ascii "65535")).object =
        { sampleTarget with code := [0xC3] ++ fields.flatten }) ∧
    Applied (ascii "global") (ascii " f") sampleTarget
      (apply ⟨ascii "global", .global⟩ sampleTarget (ascii " f")).object := by
  refine ⟨?_, ?_, ?_⟩
  · obtain ⟨-, whole, -⟩ := builtin_directives_are_exact [] sampleTarget (ascii "1 256")
    obtain ⟨e, failed⟩ : ∃ e,
        (apply ⟨ascii "db8", .data .byte⟩ sampleTarget (ascii "1 256")).error = some e :=
      Option.isSome_iff_exists.mp (by decide +kernel)
    exact ⟨e, failed, (whole (ascii "db8") ⟨ascii "db8", .data .byte⟩ rfl
      (fun _ => nofun)).1 e failed⟩
  · obtain ⟨-, -, data, -⟩ := builtin_directives_are_exact [] sampleTarget
      (ascii "\t-0x8000 " ++ [0xC2, 0xA0] ++ ascii "65535")
    obtain ⟨d, known, -, exact⟩ := data .word
    have lists : Lists .word (ascii "\t-0x8000 " ++ [0xC2, 0xA0] ++ ascii "65535")
        [-32768, 65535] :=
      (lists_iff []).mpr ⟨[⟨true, 32768⟩, ⟨false, 65535⟩], by decide, by decide, by decide⟩
    obtain ⟨fields, holds, changed⟩ := exact _ lists
    exact ⟨d, fields, known, holds, changed⟩
  · obtain ⟨-, whole, -⟩ := builtin_directives_are_exact [] sampleTarget (ascii " f")
    exact (whole (ascii "global") ⟨ascii "global", .global⟩ rfl (fun _ => nofun)).2 (by decide)

end Directive

end Asm64
