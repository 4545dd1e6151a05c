import Asm64.Proofs.Assembler.FirstPass
import Asm64.Proofs.Object.Merge
import Asm64.Proofs.Statement

/-!
# Separate and joint assembly

Two sources are assembled apart and linked, or put together with `.align16` between them and
assembled as one.  The layout of the joint source is that of the first source, padding, and that
of the second moved back by a multiple of sixteen bytes, on which no chunk depends.  So the joint
source has the merged object of the two, and linking leads to the same code.
-/

namespace Asm64

theorem paddingFor_add {alignment base : Nat} (aligned : base % alignment = 0) (offset : Nat) :
    paddingFor alignment (base + offset) = paddingFor alignment offset := by
  rw [paddingFor, paddingFor, Nat.add_mod, aligned, Nat.zero_add, Nat.mod_mod]

theorem Directive.alignment_eq_of_lookup? {name : Text} {directive : Directive} {alignment : Nat}
    (found : Directive.lookup? [] name = some directive)
    (aligns : directive.action = .align alignment) : alignment = 16 := by
  unfold Directive.lookup? at found
  split at found
  · rename_i entryName action entry
    cases found
    have member := List.mem_of_find?_eq_some entry
    rw [show action = .align alignment from aligns] at member
    simp only [Directive.builtin, List.mem_cons, Prod.mk.injEq, reduceCtorEq, and_false,
      Directive.Action.align.injEq, List.not_mem_nil, or_false, false_or] at member
    exact member.2
  · simp at found

/-- Only `.align16` looks at the offset, and only at its remainder modulo sixteen. -/
theorem Chunk.ofContent?_add {base : Nat} (aligned : base % 16 = 0) (catalog : Catalog)
    (offset : Nat) (content : Statement.Content) :
    Chunk.ofContent? catalog (base + offset) content = Chunk.ofContent? catalog offset content := by
  cases content with
  | directive name arguments =>
      simp only [Chunk.ofContent?]
      cases found : Directive.lookup? [] name with
      | none => rfl
      | some directive =>
          simp only [bind, Option.bind_some]
          cases action : directive.action with
          | align alignment =>
              cases Directive.alignment_eq_of_lookup? found action
              simp only [Chunk.directiveBytes?, paddingFor_add aligned]
          | _ => rfl
  | _ => rfl

namespace Layout

/-- The statement in code that stands `base` bytes further back. -/
def moved (base : Nat) (p : Placed) : Placed := { p with offset := base + p.offset }

theorem ofStatements?_append (catalog : Catalog) (offset : Nat) (front back : List Statement) :
    ofStatements? catalog offset (front ++ back) =
      (ofStatements? catalog offset front).bind fun layout =>
        (ofStatements? catalog (offset + layout.code.length) back).map (layout ++ ·) := by
  induction front generalizing offset with
  | nil => simp [ofStatements?, code]
  | cons statement rest inductionHypothesis =>
      rw [List.cons_append, ofStatements?, ofStatements?]
      cases Chunk.ofContent? catalog offset statement.content with
      | none => rfl
      | some chunk =>
          simp only [Option.bind_eq_bind, Option.bind_some, inductionHypothesis,
            Option.bind_assoc, Option.pure_def]
          congr 1
          funext layout
          rw [code_cons, List.length_append, ← Nat.add_assoc]
          cases ofStatements? catalog (offset + chunk.bytes.length + (code layout).length) back <;>
            rfl

theorem ofStatements?_add {base : Nat} (aligned : base % 16 = 0) (catalog : Catalog)
    (offset : Nat) (statements : List Statement) :
    ofStatements? catalog (base + offset) statements =
      (ofStatements? catalog offset statements).map (List.map (moved base)) := by
  induction statements generalizing offset with
  | nil => rfl
  | cons statement rest inductionHypothesis =>
      rw [ofStatements?, ofStatements?, Chunk.ofContent?_add aligned]
      cases Chunk.ofContent? catalog offset statement.content with
      | none => rfl
      | some chunk =>
          simp only [Option.bind_eq_bind, Option.bind_some, Nat.add_assoc, inductionHypothesis]
          cases ofStatements? catalog (offset + chunk.bytes.length) rest <;> rfl

/-! ### The layout of the joint source -/

def between (offset : Nat) (blanks : List Statement) : Layout :=
  blanks.map (fun statement => ⟨statement, offset, ⟨[], []⟩⟩) ++
    [⟨Statement.align16, offset, ⟨List.replicate (paddingFor 16 offset) 0, []⟩⟩]

theorem ofStatements?_between (catalog : Catalog) (offset : Nat) {blanks : List Statement}
    (blank : ∀ statement ∈ blanks, statement.content = .blank) :
    ofStatements? catalog offset (blanks ++ [Statement.align16]) =
      some (between offset blanks) := by
  induction blanks with
  | nil => rfl
  | cons statement rest inductionHypothesis =>
      rw [List.forall_mem_cons] at blank
      rw [List.cons_append, ofStatements?, blank.1]
      simp only [Chunk.ofContent?, Option.bind_eq_bind, Option.bind_some, List.length_nil,
        Nat.add_zero, inductionHypothesis blank.2]
      rfl

section Between

variable (offset : Nat) (blanks : List Statement)

theorem code_between :
    (between offset blanks).code = List.replicate (paddingFor 16 offset) 0 := by
  simp [between, code, List.flatMap_map]

theorem references_between : (between offset blanks).references = [] := by
  simp [between, references, List.flatMap_map]

variable {blanks} (blank : ∀ statement ∈ blanks, statement.content = .blank)

include blank

theorem globalNames_between : (between offset blanks).globalNames = [] := by
  rw [globalNames, between, List.filterMap_append, List.filterMap_map, List.append_eq_nil_iff,
    List.filterMap_eq_nil_iff]
  refine ⟨?_, rfl⟩
  intro statement member
  simp only [Function.comp_apply, blank statement member]
  rfl

theorem labelsWith_between (publicNames : List Text) :
    labelsWith publicNames (between offset blanks) = [] := by
  rw [labelsWith, between, List.filterMap_append, List.filterMap_map, List.append_eq_nil_iff,
    List.filterMap_eq_nil_iff]
  refine ⟨?_, rfl⟩
  intro statement member
  simp only [Function.comp_apply, label?, blank statement member]

end Between

section Moved

variable (base : Nat) (layout : Layout)

theorem code_map_moved : code (layout.map (moved base)) = layout.code := by
  simp [code, moved, List.flatMap_map]

theorem globalNames_map_moved : globalNames (layout.map (moved base)) = layout.globalNames := by
  simp only [globalNames, List.filterMap_map]
  rfl

theorem references_map_moved :
    references (layout.map (moved base)) = layout.references.map (Relocation.moved base) := by
  simp only [references, List.flatMap_map, List.map_flatMap, List.map_map]
  congr 1
  funext p
  apply List.map_congr_left
  intro r _
  simp only [Assembler.relocation, moved, Relocation.moved, Function.comp_apply,
    Relocation.mk.injEq, true_and, and_true]
  omega

theorem labelsWith_map_moved (publicNames : List Text) :
    labelsWith publicNames (layout.map (moved base)) =
      (labelsWith publicNames layout).map fun l => { l with value := l.value + base } := by
  simp only [labelsWith, List.filterMap_map, List.map_filterMap]
  congr 1
  funext p
  simp only [Function.comp_apply, label?, moved]
  split
  · simp [add_comm]
  · rfl

end Moved

def joint (front : Layout) (blanks : List Statement) (back : Layout) : Layout :=
  front ++ (between front.code.length blanks ++ back.map (moved front.object.linkBase))

theorem ofStatements?_joint {catalog : Catalog} {front back : List Statement}
    {frontLayout backLayout : Layout} {blanks : List Statement}
    (laidOutFront : ofStatements? catalog 0 front = some frontLayout)
    (laidOutBack : ofStatements? catalog 0 back = some backLayout)
    (blank : ∀ statement ∈ blanks, statement.content = .blank) :
    ofStatements? catalog 0 (front ++ (blanks ++ Statement.align16 :: back)) =
      some (joint frontLayout blanks backLayout) := by
  have base : frontLayout.code.length + paddingFor 16 frontLayout.code.length =
      frontLayout.object.linkBase := rfl
  rw [ofStatements?_append, laidOutFront, Option.bind_some, ← List.singleton_append (l := back),
    ← List.append_assoc, ofStatements?_append, ofStatements?_between catalog _ blank,
    Option.bind_some, code_between, List.length_replicate, Nat.zero_add, base,
    ← Nat.add_zero frontLayout.object.linkBase,
    ofStatements?_add frontLayout.object.mod_linkBase, laidOutBack]
  rfl

theorem names_labelsWith (publicNames : List Text) (layout : Layout) :
    (labelsWith publicNames layout).map (·.name) = (labelsWith [] layout).map (·.name) := by
  rw [labelsWith_eq_map, List.map_map]
  rfl

theorem labelsWith_congr {publicNames others : List Text} {layout : Layout}
    (same : ∀ name ∈ layout.labels.map (·.name), name ∈ publicNames ↔ name ∈ others) :
    labelsWith publicNames layout = labelsWith others layout := by
  rw [labels, names_labelsWith, ← names_labelsWith []] at same
  rw [labelsWith_eq_map, labelsWith_eq_map others]
  apply List.map_congr_left
  intro l member
  have contains : publicNames.contains l.name = others.contains l.name := by
    rw [Bool.eq_iff_iff, List.contains_iff_mem, List.contains_iff_mem]
    exact same l.name (List.mem_map_of_mem member)
  rw [contains]

section Joint

variable {catalog : Catalog} {front back : Layout} {blanks : List Statement}
  (blank : ∀ statement ∈ blanks, statement.content = .blank)

theorem joint_code : (joint front blanks back).code = (front.object.join back.object).code := by
  rw [joint, code_append, code_append, code_between, code_map_moved, Object.join_code]
  rfl

theorem joint_references :
    (joint front blanks back).references =
      front.references ++ back.references.map (Relocation.moved front.object.linkBase) := by
  rw [joint, references_append, references_append, references_between, references_map_moved,
    List.nil_append]

include blank in
theorem joint_labels (consecutive : Consecutive catalog 0 back)
    (definedFront : ∀ name ∈ front.globalNames, name ∈ front.labels.map (·.name))
    (definedBack : ∀ name ∈ back.globalNames, name ∈ back.labels.map (·.name))
    (distinct : ((joint front blanks back).labels.map (·.name)).Nodup)
    (addressable : Addressable (joint front blanks back).code.length) :
    (joint front blanks back).labels =
      front.labels ++ back.labels.map (Label.shift front.object.linkBase) := by
  have globals : (joint front blanks back).globalNames = front.globalNames ++ back.globalNames := by
    rw [joint, globalNames_append, globalNames_append, globalNames_between _ blank,
      globalNames_map_moved, List.nil_append]
  have split (publicNames : List Text) : labelsWith publicNames (joint front blanks back) =
      labelsWith publicNames front ++ (labelsWith publicNames back).map fun l =>
        { l with value := l.value + (front.object.linkBase : Int) } := by
    rw [joint, labelsWith_append, labelsWith_append, labelsWith_between _ blank,
      labelsWith_map_moved, List.nil_append]
  -- No name is one of both sources, so neither makes labels of the other public.
  have apart : ∀ name ∈ front.labels.map (·.name), name ∉ back.labels.map (·.name) := by
    rw [labels, names_labelsWith, split, List.map_append, List.map_map,
      List.nodup_append] at distinct
    intro name inFront inBack
    rw [labels, names_labelsWith] at inFront inBack
    exact distinct.2.2 name inFront name inBack rfl
  have publicFront : labelsWith (front.globalNames ++ back.globalNames) front = front.labels := by
    apply labelsWith_congr
    intro name inFront
    rw [List.mem_append, or_iff_left_iff_imp]
    exact fun inBack => absurd (definedBack name inBack) (apart name inFront)
  have publicBack : labelsWith (front.globalNames ++ back.globalNames) back = back.labels := by
    apply labelsWith_congr
    intro name inBack
    rw [List.mem_append, or_iff_right_iff_imp]
    exact fun inFront => absurd inBack (apart name (definedFront name inFront))
  rw [joint_code, Object.length_join_code] at addressable
  rw [labels, globals, split, publicFront, publicBack]
  congr 1
  apply List.map_congr_left
  intro l member
  rw [← Label.shift_value addressable (consecutive.object_labels_inBounds l member)]
  rfl

include blank in
/-- The joint source has the merged object of the two sources. -/
theorem joint_object (consecutive : Consecutive catalog 0 back)
    (definedFront : ∀ name ∈ front.globalNames, name ∈ front.labels.map (·.name))
    (definedBack : ∀ name ∈ back.globalNames, name ∈ back.labels.map (·.name))
    (distinct : ((joint front blanks back).labels.map (·.name)).Nodup)
    (addressable : Addressable (joint front blanks back).code.length) :
    (joint front blanks back).object = front.object.merge back.object := by
  apply Object.eq_of_parts
  · exact joint_code
  · rw [Object.merge_labels]
    exact joint_labels blank consecutive definedFront definedBack distinct addressable
  · exact joint_references

theorem Consecutive.unlocated (consecutive : Consecutive catalog 0 front) :
    front.object.Unlocated where
  labels := consecutive.object_labels_inBounds
  relocations := consecutive.object_inBounds
  internal := fun _ member => isExternal_of_mem_references member

end Joint

end Layout

namespace Assembler

/-- If two sources and the two of them put together can be assembled, then the objects of the two
can be linked.  Where the result can be located, it has the code and the labels of the joint
source. -/
theorem link_agrees_with_joint_assembly (a : Assembler) (builtinOnly : a.customDirectives = [])
    (front back : Text) (frontAssembly backAssembly jointAssembly : Assembly)
    (assembledFront : a.assemble front = .ok frontAssembly)
    (assembledBack : a.assemble back = .ok backAssembly)
    (assembledJoint : a.assemble (front ++ ascii "\n.align16\n" ++ back) = .ok jointAssembly)
    (addressable : Addressable jointAssembly.object.code.length) :
    ∃ linked, (frontAssembly.object.link backAssembly.object).result = .ok linked ∧
      ∀ located, linked.locate = .ok located →
        located.code = jointAssembly.object.code ∧
          located.labels = jointAssembly.object.labels := by
  obtain ⟨frontLayout, laidOutFront, -, definedFront, -, frontObject⟩ :=
    assembleStatements_eq_ok builtinOnly assembledFront
  obtain ⟨backLayout, laidOutBack, -, definedBack, -, backObject⟩ :=
    assembleStatements_eq_ok builtinOnly assembledBack
  obtain ⟨layout, laidOut, distinct, -, writable, jointObject⟩ :=
    assembleStatements_eq_ok builtinOnly assembledJoint
  have consecutiveFront := (Layout.ofStatements?_eq_some_iff.mp laidOutFront).1
  have consecutiveBack := (Layout.ofStatements?_eq_some_iff.mp laidOutBack).1
  have disjoint : layout.object.relocations.Pairwise Relocation.Disjoint :=
    (Layout.ofStatements?_eq_some_iff.mp laidOut).1.references_ordered.imp
      Relocation.disjoint_of_ordered
  have distinctLabels : (layout.object.labels.map (·.name)).Nodup := distinct
  obtain ⟨blanks, blank, statements⟩ := Statement.map_snd_ofSource_align16 front back
  rw [statements, Layout.ofStatements?_joint laidOutFront laidOutBack blank,
    Option.some.injEq] at laidOut
  rw [jointObject, Object.length_written_code] at addressable
  have merged : layout.object = frontLayout.object.merge backLayout.object := by
    rw [← laidOut] at distinct addressable ⊢
    exact Layout.joint_object blank consecutiveBack definedFront definedBack distinct addressable
  rw [merged] at addressable disjoint distinctLabels writable
  have unlocatedFront := consecutiveFront.unlocated
  have unlocatedBack := consecutiveBack.unlocated
  rw [frontObject, backObject, jointObject, merged]
  refine ⟨(frontLayout.object.written.join backLayout.object.written).written, ?_, ?_⟩
  · have noClash := Object.clash?_eq_none_of_merge distinctLabels
    rw [Object.link_eq_ok_iff
      (Object.sound_written unlocatedFront.labels unlocatedFront.relocations)
      (Object.sound_written unlocatedBack.labels unlocatedBack.relocations)
      (by rwa [Object.length_join_written_code])]
    exact ⟨noClash, Object.allWritable_join_written unlocatedFront unlocatedBack addressable
      distinctLabels writable, rfl⟩
  · intro located finished
    exact Object.locate_join_written unlocatedFront unlocatedBack addressable distinctLabels
      disjoint finished

/-- Two sources that refer to the labels of each other. -/
def sampleFront : Text := ascii ".global f\nf: add eax, g[rip]"

def sampleBack : Text := ascii ".global g\ng: add f[rip], g"

theorem link_agrees_with_joint_assembly_sample :
    ∃ frontAssembly backAssembly jointAssembly linked located,
      standard.assemble sampleFront = .ok frontAssembly ∧
      standard.assemble sampleBack = .ok backAssembly ∧
      standard.assemble (sampleFront ++ ascii "\n.align16\n" ++ sampleBack) =
        .ok jointAssembly ∧
      (frontAssembly.object.link backAssembly.object).result = .ok linked ∧
      linked.locate = .ok located ∧
      located.code = jointAssembly.object.code ∧
      located.labels = jointAssembly.object.labels := by
  have evaluated : (do
      let frontAssembly ← (standard.assemble sampleFront).toOption
      let backAssembly ← (standard.assemble sampleBack).toOption
      let jointAssembly ← (standard.assemble
        (sampleFront ++ ascii "\n.align16\n" ++ sampleBack)).toOption
      let linked ← (frontAssembly.object.link backAssembly.object).result.toOption
      let located ← linked.locate.toOption
      return (jointAssembly.object.code.length, located.code.length)) = some (26, 26) := by
    decide +kernel
  simp only [bind, Option.bind_eq_some_iff, toOption_eq_some_iff, pure, Option.some.injEq,
    Prod.mk.injEq] at evaluated
  obtain ⟨frontAssembly, assembledFront, backAssembly, assembledBack, jointAssembly,
    assembledJoint, linked, link, located, locate, length, -⟩ := evaluated
  obtain ⟨other, otherLink, agrees⟩ := link_agrees_with_joint_assembly standard rfl sampleFront
    sampleBack frontAssembly backAssembly jointAssembly assembledFront assembledBack
    assembledJoint (by rw [length]; unfold Addressable; decide)
  rw [link, Except.ok.injEq] at otherLink
  subst otherLink
  exact ⟨frontAssembly, backAssembly, jointAssembly, linked, located, assembledFront,
    assembledBack, assembledJoint, link, locate, agrees located locate⟩

end Assembler

end Asm64
