import Asm64.Proofs.Assembler.FirstPass

/-!
# Assembling in two passes

The assembler writes its code in one go and resolves references at the end.  The result is what
the two passes of the direct reading give: chunks one behind the other, labels at the offsets of
their statements, and in the field of each reference to a label of the source the distance from
the end of the instruction to that label.
-/

namespace Asm64

namespace Layout

/-- The second pass: what an object is to the layout of its source. -/
structure Realizes (o : Object) (layout : Layout) : Prop where
  labels : o.labels = layout.labels
  distinct : (o.labels.map (·.name)).Nodup
  /-- A reference lies in its chunk, and distances are measured from the end of the chunk. -/
  inChunks : ∀ p ∈ layout, ∀ r ∈ p.chunk.references, r.InBounds p.chunk.bytes.length
  disjoint : layout.references.Pairwise Relocation.Disjoint
  length : o.code.length = layout.code.length
  /-- A reference to a label of the source holds the distance to it, which is in range. -/
  resolved : ∀ r ∈ layout.references, ∀ l ∈ o.labels, l.name = r.label →
    r.Reaches l ∧ signedOfLittleEndian (r.field o.code) = l.value - r.relativeTo
  /-- All other bytes are those of the chunks. -/
  unchanged : ∀ position,
    (∀ r ∈ layout.references, (∃ l ∈ o.labels, l.name = r.label) → ¬ r.Covers position) →
    o.code[position]? = layout.code[position]?
  /-- References to public labels and to labels of other sources remain. -/
  remaining : o.relocations = layout.references.filterMap fun r =>
    match o.labels.find? fun l => l.name = r.label with
    | none => some { r with isExternal := true }
    | some l => if l.isPublic then some r else none

variable {catalog : Catalog} {layout : Layout}

theorem Consecutive.inChunks {offset : Nat} (consecutive : Consecutive catalog offset layout)
    {p : Placed} (member : p ∈ layout) :
    ∀ r ∈ p.chunk.references, r.InBounds p.chunk.bytes.length := by
  obtain ⟨before, after, split⟩ := List.mem_iff_append.mp member
  exact (Chunk.references_of_ofContent? (consecutive.placed split).2).1

theorem target?_object_eq_find? {r : Relocation} (distinct : (layout.labels.map (·.name)).Nodup)
    (member : r ∈ layout.references) :
    layout.object.target? r = layout.labels.find? fun l => l.name = r.label := by
  cases found : layout.labels.find? fun l => l.name = r.label with
  | none =>
      rw [Object.target?_of_not_external (isExternal_of_mem_references member),
        Object.label?_eq_none_iff]
      intro l defined
      simpa using List.find?_eq_none.mp found l defined
  | some l =>
      rw [target?_object distinct member]
      exact ⟨List.mem_of_find?_eq_some found, by simpa using List.find?_some found⟩

/-- Writing the references of a layout realizes it. -/
theorem Consecutive.realizes (consecutive : Consecutive catalog 0 layout)
    (distinct : (layout.labels.map (·.name)).Nodup) (writable : layout.object.AllWritable)
    (addressable : Addressable layout.code.length) :
    Realizes layout.object.written layout := by
  have bounds := consecutive.object_inBounds
  have inCode : ∀ r ∈ layout.references, r.InCode layout.code.length :=
    fun r member => (bounds r member).inCode
  have disjoint : layout.references.Pairwise Relocation.Disjoint :=
    consecutive.references_ordered.imp Relocation.disjoint_of_ordered
  refine
    { labels := rfl
      distinct := distinct
      inChunks := fun p member => consecutive.inChunks member
      disjoint := disjoint
      length := Object.length_written_code layout.object
      resolved := ?_
      unchanged := ?_
      remaining := ?_ }
  · intro r member l defined named
    have target := (target?_object distinct member).mpr ⟨defined, named⟩
    have measured := (bounds r member).isOffset addressable
    have labelled := (consecutive.object_labels_inBounds l defined).isOffset addressable
    have reaches : r.Reaches l :=
      (Object.writable_iff addressable (inCode r member) measured labelled).mp
        (writable r member l target)
    exact ⟨reaches, Object.signed_field_written_code inCode disjoint member target measured
      labelled reaches⟩
  · intro position outside
    apply Object.getElem?_written_code inCode
    intro r member defined
    obtain ⟨l, target⟩ := Option.ne_none_iff_exists'.mp defined
    exact outside r member ⟨l, (target?_object distinct member).mp target⟩
  · apply List.filterMap_congr
    intro r member
    rw [Object.remainder, target?_object_eq_find? distinct member]
    rfl

end Layout

namespace Assembler

/-- A source that assembles has a layout, each statement standing where the chunks before it end,
and the object is what the second pass makes of that layout. -/
theorem assemble_realizes_layout (a : Assembler) (builtinOnly : a.customDirectives = [])
    (source : Text) (assembly : Assembly) (assembled : a.assemble source = .ok assembly)
    (addressable : Addressable assembly.object.code.length) :
    ∃ layout : Layout,
      layout.map (·.statement) = (Statement.ofSource source).map Prod.snd ∧
      (∀ (before : Layout) p after, layout = before ++ p :: after →
        p.offset = before.code.length ∧
          Chunk.ofContent? a.forms p.offset p.statement.content = some p.chunk) ∧
      Layout.Realizes assembly.object layout := by
  obtain ⟨layout, laidOut, distinct, -, writable, object⟩ :=
    assembleStatements_eq_ok builtinOnly assembled
  obtain ⟨consecutive, statements⟩ := Layout.ofStatements?_eq_some_iff.mp laidOut
  refine ⟨layout, statements, ?_, ?_⟩
  · intro before p after split
    have placed := consecutive.placed split
    rwa [Nat.zero_add] at placed
  · rw [object, Object.length_written_code] at addressable
    rw [object]
    exact consecutive.realizes distinct writable addressable

/-- A source with references in both directions, two of them in one instruction, padding, a
public label and a label of another source. -/
def sampleSource : Text :=
  ascii ".global start\nstart: add eax, end[rip]\n.align16\n" ++
    ascii "add start[rip], end\nend: add eax, elsewhere[rip]"

theorem assemble_realizes_layout_sample :
    ∃ assembly, standard.assemble sampleSource = .ok assembly ∧
      assembly.object.relocations.length = 2 ∧
      ∃ layout : Layout,
        layout.map (·.statement) = (Statement.ofSource sampleSource).map Prod.snd ∧
        (∀ (before : Layout) p after, layout = before ++ p :: after →
          p.offset = before.code.length ∧
            Chunk.ofContent? standard.forms p.offset p.statement.content = some p.chunk) ∧
        Layout.Realizes assembly.object layout := by
  have evaluated : (standard.assemble sampleSource).toOption.map
      (fun assembly => (assembly.object.code.length, assembly.object.relocations.length)) =
        some (32, 2) := by decide +kernel
  simp only [Option.map_eq_some_iff, toOption_eq_some_iff, Prod.mk.injEq] at evaluated
  obtain ⟨assembly, assembled, length, relocations⟩ := evaluated
  refine ⟨assembly, assembled, relocations, ?_⟩
  exact assemble_realizes_layout standard rfl sampleSource assembly assembled
    (by rw [length]; unfold Addressable; decide)

end Assembler

end Asm64
