import Asm64.Proofs.Assembler.FirstPass
import Asm64.Proofs.Listing
import Asm64.Proofs.Statement.Lines

/-!
# The listing shows the code

Entries are taken down while the statements are laid out, and rendered when the references have
been written.  They are the chunks of the layout that are not empty, so their rows cover the code
from its start to its end, whatever has been written into it since.
-/

namespace Asm64.Assembler

open Listing (Row Shows Titled)

/-! ### The rows of a statement -/

/-- The rows that list a statement.  They show its part of the code, the first of them with its
text, and there are none exactly if there is nothing to show. -/
structure ListedAs (code : List UInt8) (p : Placed) (rows : List Row) : Prop where
  shown : Shows p.offset ((code.drop p.offset).take p.chunk.bytes.length) rows
  titled : Titled p.statement.text rows
  silent : rows = [] ↔ p.chunk.bytes = []
  visible : rows ≠ [] → p.statement.text ≠ []

def rowsOf (code : List UInt8) (p : Placed) : List Row :=
  (Layout.entry? p).toList.flatMap (Listing.Entry.rows code)

theorem rowsOf_of_eq_nil {code : List UInt8} {p : Placed} (empty : p.chunk.bytes = []) :
    rowsOf code p = [] := by
  rw [rowsOf, Layout.entry?, if_pos empty]
  rfl

theorem rowsOf_of_ne_nil {code : List UInt8} {p : Placed} (nonempty : p.chunk.bytes ≠ []) :
    rowsOf code p = Listing.rowsOf p.statement.text p.offset
      ((code.drop p.offset).take p.chunk.bytes.length) := by
  rw [rowsOf, Layout.entry?, if_neg nonempty, Option.toList_some, List.flatMap_singleton,
    Listing.Entry.rows, List.drop_take, Nat.add_sub_cancel_left]

theorem rows_entries (code : List UInt8) (layout : Layout) :
    Listing.rows code layout.entries = (layout.map (rowsOf code)).flatten := by
  induction layout with
  | nil => rfl
  | cons p rest inductionHypothesis =>
      rw [List.map_cons, List.flatten_cons, ← inductionHypothesis, Layout.entries,
        List.filterMap_cons]
      unfold rowsOf Listing.rows
      cases Layout.entry? p with
      | none => rfl
      | some entry =>
          rw [Option.toList_some, List.flatMap_singleton, List.flatMap_cons]
          rfl

theorem text_ne_nil_of_placed {catalog : Catalog} {source : Text} {p : Placed}
    (inSource : p.statement ∈ (Statement.ofSource source).map Prod.snd)
    (placed : Chunk.ofContent? catalog p.offset p.statement.content = some p.chunk)
    (nonempty : p.chunk.bytes ≠ []) : p.statement.text ≠ [] := by
  intro empty
  obtain ⟨numbered, ofSource, statement⟩ := List.mem_map.mp inSource
  obtain ⟨t, -, parsed⟩ := Statement.exists_parse_of_mem_ofSource numbered ofSource
  rw [← statement, parsed] at empty placed
  rw [Statement.content_of_text_eq_nil empty, Chunk.ofContent?, Option.some.injEq] at placed
  rw [← placed] at nonempty
  exact nonempty rfl

theorem shows_rowsOf (code : List UInt8) (p : Placed) :
    Shows p.offset ((code.drop p.offset).take p.chunk.bytes.length) (rowsOf code p) := by
  by_cases empty : p.chunk.bytes = []
  · rw [rowsOf_of_eq_nil empty, empty]
    exact .nil
  · rw [rowsOf_of_ne_nil empty]
    exact Listing.shows_rowsOf _ _ _

theorem listedAs_rowsOf {code : List UInt8} {p : Placed}
    (inCode : p.offset + p.chunk.bytes.length ≤ code.length)
    (text : p.chunk.bytes ≠ [] → p.statement.text ≠ []) : ListedAs code p (rowsOf code p) := by
  by_cases empty : p.chunk.bytes = []
  · have silent : rowsOf code p = [] := rowsOf_of_eq_nil empty
    refine ⟨shows_rowsOf code p, ?_, iff_of_true silent empty, fun shown => absurd silent shown⟩
    rw [silent]
    trivial
  · have visible : (code.drop p.offset).take p.chunk.bytes.length ≠ [] := by
      have positive := List.length_pos_iff.mpr empty
      rw [← List.length_pos_iff, List.length_take, List.length_drop]
      omega
    refine ⟨shows_rowsOf code p, ?_, iff_of_false ?_ empty, fun _ => text empty⟩
    · rw [rowsOf_of_ne_nil empty]
      exact Listing.titled_rowsOf _ _ _
    · rw [rowsOf_of_ne_nil empty, Listing.rowsOf_of_ne_nil _ _ visible]
      exact List.cons_ne_nil _ _

/-! ### All rows -/

/-- The rows of the statements of a layout show the code from the offset of the first one on. -/
theorem shows_flatten_rowsOf {catalog : Catalog} {offset : Nat} {layout : Layout}
    {code : List UInt8} (consecutive : Layout.Consecutive catalog offset layout)
    (length : code.length = offset + layout.code.length) :
    Shows offset (code.drop offset) (layout.map (rowsOf code)).flatten := by
  induction consecutive with
  | @nil offset =>
      have nothing : code.drop offset = [] := List.drop_eq_nil_of_le length.le
      rw [nothing]
      exact .nil
  | @cons offset statement chunk rest _ _ inductionHypothesis =>
      rw [Layout.code_cons, List.length_append, ← Nat.add_assoc] at length
      have measured : ((code.drop offset).take chunk.bytes.length).length = chunk.bytes.length := by
        rw [List.length_take, List.length_drop, Nat.min_eq_left]
        dsimp only at length
        omega
      have first := shows_rowsOf code ⟨statement, offset, chunk⟩
      have later := inductionHypothesis length
      rw [← measured, ← List.drop_drop, measured] at later
      rw [← List.take_append_drop chunk.bytes.length (code.drop offset)]
      exact first.append (by rwa [measured])

theorem unbroken_of_listedAs {code : List UInt8} {p : Placed} {rows : List Row}
    (listed : ListedAs code p rows) (unbroken : 10 ∉ p.statement.text) :
    ∀ row ∈ rows, 10 ∉ row.text := by
  intro row member
  have titled := listed.titled
  cases rows with
  | nil => cases member
  | cons first more =>
      rcases List.mem_cons.mp member with rfl | inMore
      · rw [titled.1]
        exact unbroken
      · rw [titled.2 row inMore]
        exact List.not_mem_nil

/-- The listing of a source shows every byte of its code once.  Each statement has its rows, and
together they show the code from its first to its last byte; each row is a line. -/
theorem listing_shows_code_once {a : Assembler} (builtinOnly : a.customDirectives = [])
    {source : Text} {assembly : Assembly} (assembled : a.assemble source = .ok assembly) :
    ∃ (layout : Layout) (groups : List (List Row)),
      layout.map (·.statement) = (Statement.ofSource source).map Prod.snd ∧
      Layout.Consecutive a.forms 0 layout ∧
      List.Forall₂ (ListedAs assembly.object.code) layout groups ∧
      Shows 0 assembly.object.code groups.flatten ∧
      ∃ lines, Text.HasLines assembly.listing lines ∧
        List.Forall₂ Row.Written groups.flatten lines := by
  obtain ⟨d, ran, clean, -, written, rendered⟩ := exists_draft_of_assembleStatements assembled
  obtain ⟨layout, laidOut, object, -, -, listing⟩ := run_of_clean builtinOnly ran clean
  obtain ⟨consecutive, statements⟩ := Layout.ofStatements?_eq_some_iff.mp laidOut
  have length : assembly.object.code.length = 0 + layout.code.length := by
    rw [written, Object.length_written_code, object, Nat.zero_add]
    rfl
  have inSource (p : Placed) (member : p ∈ layout) :
      p.statement ∈ (Statement.ofSource source).map Prod.snd := by
    rw [← statements]
    exact List.mem_map_of_mem member
  have listed (p : Placed) (member : p ∈ layout) :
      ListedAs assembly.object.code p (rowsOf assembly.object.code p) := by
    obtain ⟨before, after, split⟩ := List.mem_iff_append.mp member
    obtain ⟨offset, placed⟩ := consecutive.placed split
    apply listedAs_rowsOf
    · rw [length, offset, split, Layout.code_append, Layout.code_cons, List.length_append,
        List.length_append]
      omega
    · exact text_ne_nil_of_placed (inSource p member) placed
  refine ⟨layout, layout.map (rowsOf assembly.object.code), statements, consecutive, ?_,
    shows_flatten_rowsOf consecutive length, ?_⟩
  · rw [List.forall₂_map_right_iff, List.forall₂_same]
    exact listed
  · rw [rendered, listing, Listing.render, rows_entries]
    apply Listing.exists_lines_of_render
    intro row member
    obtain ⟨rows, inGroups, inRows⟩ := List.mem_flatten.mp member
    obtain ⟨p, inLayout, rfl⟩ := List.mem_map.mp inGroups
    obtain ⟨numbered, ofSource, statement⟩ := List.mem_map.mp (inSource p inLayout)
    have unbroken := Statement.unbroken_of_mem_ofSource numbered ofSource
    rw [statement] at unbroken
    exact unbroken_of_listedAs (listed p inLayout) unbroken row inRows

/-- A source with a statement of two rows, padding of which the second is empty, and a reference
that is written after its statement has been taken down. -/
def listedSource : Text :=
  ascii "start: .utf8 \"two rows\" // Nine bytes.\n.global start\n.align16\n.align16\n" ++
    ascii "add rax, start[rip]\nend: ret"

def sampleListing : Text :=
  ascii "0000  74 77 6f 20 72 6f 77 73  .utf8 \"two rows\"\n0008  00\n" ++
    ascii "0009  00 00 00 00 00 00 00     .align16\n" ++
    ascii "0010  48 03 05 e9 ff ff ff     add rax, start[rip]\n" ++
    ascii "0017  c3                       ret\n"

theorem listing_shows_code_once_sample :
    ∃ assembly, standard.assemble listedSource = .ok assembly ∧
      assembly.listing = sampleListing ∧
      ∃ (layout : Layout) (groups : List (List Row)),
        layout.map (·.statement) = (Statement.ofSource listedSource).map Prod.snd ∧
        Layout.Consecutive standard.forms 0 layout ∧
        List.Forall₂ (ListedAs assembly.object.code) layout groups ∧
        Shows 0 assembly.object.code groups.flatten ∧
        ∃ lines, Text.HasLines assembly.listing lines ∧
          List.Forall₂ Row.Written groups.flatten lines := by
  have evaluated : (standard.assemble listedSource).toOption.map (·.listing) =
      some sampleListing := by decide +kernel
  simp only [Option.map_eq_some_iff, toOption_eq_some_iff] at evaluated
  obtain ⟨assembly, assembled, listing⟩ := evaluated
  exact ⟨assembly, assembled, listing, listing_shows_code_once rfl assembled⟩

end Asm64.Assembler
