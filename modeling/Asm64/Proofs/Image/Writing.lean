import Asm64.Proofs.Image.FileLayout
import Asm64.Proofs.InPlace

/-!
# Writing executables

Symbols are objects that others may refer to, and they are updated in place.  The entry is one of
the symbols that are listed, or one of its own, and is updated once in either case.  Bytes are
written when nothing can fail any more.  They go to a buffer one header after another, and
anywhere else in one go.
-/

namespace Asm64.Elf

open InPlace

/-- A binary refers to its symbols and to its entry. -/
structure Binary where
  base : UInt64
  symbols : List Nat
  entry : Option Nat

/-- What changes while a binary is encoded: its sections, the symbols that there are, and what has
been written. -/
@[ext]
structure Workspace (Output : Type) where
  sections : List Section
  symbols : Nat → Symbol
  output : Output

namespace Binary

variable {Output : Type}

/-- The entry is listed if it is the same object as one of the symbols. -/
def entryPoint (b : Binary) (symbols : Nat → Symbol) (entry : Nat) : EntryPoint :=
  if entry ∈ b.symbols then .listed (b.symbols.idxOf entry) else .separate (symbols entry)

def image (b : Binary) (w : Workspace Output) : Image :=
  ⟨b.base, w.sections, b.symbols.map w.symbols, b.entry.map (b.entryPoint w.symbols)⟩

def touched (b : Binary) (entry : Nat) : List Nat :=
  if b.symbols.contains entry then b.symbols else b.symbols ++ [entry]

end Binary

/-! ### Step by step -/

def placeInPlace {Output : Type} (base : UInt64) (p : Nat) :
    InPlace (Workspace Output) Error Unit := do
  let s := (← get).symbols p
  if s.sectionIndex = 0 then
    modify fun w => { w with symbols := Function.update w.symbols p (placeSymbol base s) }
  else throw (.symbolSection s.name s.sectionIndex)

def emit (bytes : List UInt8) : InPlace (Workspace (List UInt8)) Error Unit :=
  modify fun w => { w with output := w.output ++ bytes }

/-- Updates the section and the symbols, and writes the file. -/
def Binary.layOutInPlace (b : Binary) (code : Section) (entry : Nat) :
    InPlace (Workspace (List UInt8)) Error Unit := do
  modify fun w => { w with sections := [placeSection b.base code] }
  (b.touched entry).forM (placeInPlace b.base)
  emit (fileHeader ((← get).symbols entry).address)
  emit (headersSegment b.base).bytes
  emit (loadSegment b.base code).bytes
  emit code.data

/-- Encodes a binary into a buffer. -/
def Binary.encodeInPlace (b : Binary) : InPlace (Workspace (List UInt8)) Error Unit := do
  let w ← get
  match w.sections, b.entry with
  | [code], some entry =>
    let symbol := w.symbols entry
    if symbol.sectionIndex ≠ 0 then throw (.entrySection symbol.name symbol.sectionIndex)
    else if b.base.toNat % pageSize ≠ 0 then throw (.unalignedBase b.base)
    else b.layOutInPlace code entry
  | [_], none => throw .noEntry
  | sections, _ => throw (.sectionCount sections.length)

/-- Encodes a binary into a new buffer, and hands what is in it to a writer, which may fail. -/
def Binary.encodeTo {State Failure : Type} (b : Binary)
    (write : List UInt8 → InPlace State Failure Unit) :
    InPlace (Workspace State) (Error ⊕ Failure) Unit :=
  fun w =>
    match runOn b.encodeInPlace { w with output := [] } with
    | (.ok (), v) =>
      let written := runOn (write v.output) w.output
      (written.1.mapError .inr, { v with output := written.2 })
    | (.error e, v) => (.error (.inl e), { v with output := w.output })

/-! ### The symbols after some of them have been updated -/

def placed (base : UInt64) (pointers : List Nat) (symbols : Nat → Symbol) : Nat → Symbol :=
  fun p => if p ∈ pointers then placeSymbol base (symbols p) else symbols p

theorem placed_of_mem {base : UInt64} {pointers : List Nat} {symbols : Nat → Symbol} {p : Nat}
    (member : p ∈ pointers) : placed base pointers symbols p = placeSymbol base (symbols p) :=
  if_pos member

theorem placed_of_not_mem {base : UInt64} {pointers : List Nat} {symbols : Nat → Symbol} {p : Nat}
    (absent : p ∉ pointers) : placed base pointers symbols p = symbols p :=
  if_neg absent

theorem placed_nil (base : UInt64) (symbols : Nat → Symbol) : placed base [] symbols = symbols := by
  funext p
  exact placed_of_not_mem List.not_mem_nil

theorem placed_update {base : UInt64} {pointers : List Nat} {symbols : Nat → Symbol} {p : Nat}
    (absent : p ∉ pointers) :
    placed base pointers (Function.update symbols p (placeSymbol base (symbols p))) =
      placed base (p :: pointers) symbols := by
  funext q
  by_cases same : q = p
  · rw [same, placed_of_not_mem absent, placed_of_mem List.mem_cons_self, Function.update_self]
  · unfold placed
    simp only [List.mem_cons, same, false_or, Function.update_of_ne same]

theorem sectionIndex_update (base : UInt64) (symbols : Nat → Symbol) (p q : Nat) :
    (Function.update symbols p (placeSymbol base (symbols p)) q).sectionIndex =
        (symbols q).sectionIndex ∧
      (Function.update symbols p (placeSymbol base (symbols p)) q).name = (symbols q).name := by
  by_cases same : q = p
  · rw [same, Function.update_self]
    exact ⟨rfl, rfl⟩
  · rw [Function.update_of_ne same]
    exact ⟨rfl, rfl⟩

section Runs

variable {Output : Type}

theorem runOn_placeInPlace (base : UInt64) (p : Nat) (w : Workspace Output) :
    runOn (placeInPlace base p) w =
      if (w.symbols p).sectionIndex = 0 then
        (.ok (), { w with
          symbols := Function.update w.symbols p (placeSymbol base (w.symbols p)) })
      else (.error (.symbolSection (w.symbols p).name (w.symbols p).sectionIndex), w) := by
  rw [placeInPlace, runOn_bind, runOn_get]
  dsimp only
  split <;> rfl

def placing (symbols : Nat → Symbol) (pointers : List Nat) : Except Error Unit :=
  match pointers.dropWhile (isInCode ∘ symbols) with
  | [] => .ok ()
  | p :: _ => .error (.symbolSection (symbols p).name (symbols p).sectionIndex)

/-- Symbols are updated up to the first one that lies in another section. -/
theorem runOn_forM_placeInPlace {base : UInt64} {pointers : List Nat} (distinct : pointers.Nodup)
    (w : Workspace Output) :
    runOn (pointers.forM (placeInPlace base)) w =
      (placing w.symbols pointers, { w with
        symbols := placed base (pointers.takeWhile (isInCode ∘ w.symbols)) w.symbols }) := by
  induction pointers generalizing w with
  | nil =>
      rw [List.takeWhile_nil, placed_nil]
      rfl
  | cons p rest inductionHypothesis =>
      obtain ⟨absent, distinct⟩ := List.nodup_cons.mp distinct
      change runOn (placeInPlace base p >>= fun _ => rest.forM _) w = _
      rw [runOn_bind, runOn_placeInPlace]
      by_cases inCode : (w.symbols p).sectionIndex = 0
      · have here : (isInCode ∘ w.symbols) p = true := decide_eq_true inCode
        have sameTest : isInCode ∘
            Function.update w.symbols p (placeSymbol base (w.symbols p)) =
              isInCode ∘ w.symbols := by
          funext q
          simp only [Function.comp_apply, isInCode, (sectionIndex_update base w.symbols p q).1]
        have notYet : p ∉ rest.takeWhile (isInCode ∘ w.symbols) := fun member =>
          absent ((List.takeWhile_sublist _).subset member)
        rw [if_pos inCode]
        dsimp only
        rw [inductionHypothesis distinct, placing, placing, sameTest, placed_update notYet,
          List.takeWhile_cons_of_pos here, List.dropWhile_cons_of_pos here]
        cases rest.dropWhile (isInCode ∘ w.symbols) with
        | nil => rfl
        | cons q _ =>
            obtain ⟨sameSection, sameName⟩ := sectionIndex_update base w.symbols p q
            simp only [sameSection, sameName]
      · have notHere : ¬ (isInCode ∘ w.symbols) p = true := fun here =>
          inCode (of_decide_eq_true here)
        rw [if_neg inCode, placing, List.takeWhile_cons_of_neg notHere,
          List.dropWhile_cons_of_neg notHere, placed_nil]

theorem map_placed_takeWhile {base : UInt64} {pointers : List Nat} (distinct : pointers.Nodup)
    (symbols : Nat → Symbol) :
    pointers.map (placed base (pointers.takeWhile (isInCode ∘ symbols)) symbols) =
      ((pointers.map symbols).takeWhile isInCode).map (placeSymbol base) ++
        (pointers.map symbols).dropWhile isInCode := by
  have split := List.takeWhile_append_dropWhile (p := isInCode ∘ symbols) (l := pointers)
  rw [← split] at distinct
  have apart := List.disjoint_of_nodup_append distinct
  rw [List.takeWhile_map, List.dropWhile_map, List.map_map]
  conv_lhs => rw [← split, List.map_append]
  congr 1
  · exact List.map_congr_left fun p member => placed_of_mem (by rwa [split])
  · exact List.map_congr_left fun p member =>
      placed_of_not_mem fun earlier => apart (by rwa [split] at earlier) member

end Runs

/-! ### Whole binaries -/

namespace Binary

variable {b : Binary} {entry : Nat} {code : Section} {symbols : Nat → Symbol}

theorem mem_touched_iff {p : Nat} : p ∈ b.touched entry ↔ p ∈ b.symbols ∨ p = entry := by
  unfold touched
  by_cases listed : entry ∈ b.symbols
  · rw [if_pos (List.contains_iff_mem.mpr listed)]
    exact ⟨Or.inl, fun given => given.elim id fun same => same ▸ listed⟩
  · rw [if_neg (fun contained => listed (List.contains_iff_mem.mp contained)), List.mem_append,
      List.mem_singleton]

theorem nodup_touched (distinct : b.symbols.Nodup) : (b.touched entry).Nodup := by
  unfold touched
  by_cases listed : entry ∈ b.symbols
  · rwa [if_pos (List.contains_iff_mem.mpr listed)]
  · rw [if_neg (fun contained => listed (List.contains_iff_mem.mp contained))]
    exact List.nodup_append'.mpr ⟨distinct, List.nodup_singleton entry, by simpa using listed⟩

/-- A symbol that cannot be updated ends the updates before the entry is reached. -/
theorem touched_of_stuck (entry : Nat) {p : Nat} {rest : List Nat}
    (stuck : b.symbols.dropWhile (isInCode ∘ symbols) = p :: rest) :
    (b.touched entry).takeWhile (isInCode ∘ symbols) = b.symbols.takeWhile (isInCode ∘ symbols) ∧
      ∃ others, (b.touched entry).dropWhile (isInCode ∘ symbols) = p :: others := by
  unfold touched
  split
  · exact ⟨rfl, rest, stuck⟩
  · have shorter : (b.symbols.takeWhile (isInCode ∘ symbols)).length ≠ b.symbols.length := by
      have split := congrArg List.length
        (List.takeWhile_append_dropWhile (p := isInCode ∘ symbols) (l := b.symbols))
      rw [stuck, List.length_append, List.length_cons] at split
      omega
    rw [List.takeWhile_append, if_neg shorter, List.dropWhile_append, stuck]
    exact ⟨rfl, rest ++ [entry], rfl⟩

theorem entrySymbol?_image {Output : Type} (w : Workspace Output) :
    (b.image w).entrySymbol? = b.entry.map w.symbols := by
  cases known : b.entry with
  | none => simp [Image.entrySymbol?, image, known]
  | some entry =>
      by_cases listed : entry ∈ b.symbols
      · simp [Image.entrySymbol?, image, known, entryPoint, listed, List.getElem?_idxOf]
      · simp [Image.entrySymbol?, image, known, entryPoint, listed]

theorem exists_image_eq (image : Image)
    (listed : ∀ index, image.entry = some (.listed index) → index < image.symbols.length) :
    ∃ (b : Binary) (w : Workspace (List UInt8)), b.symbols.Nodup ∧ b.image w = image := by
  obtain ⟨base, sections, symbols, entry⟩ := image
  -- The symbols are numbered in their order, and an entry of its own comes behind them.
  have numbered (last : Symbol) :
      (List.range symbols.length).map (fun p => symbols[p]?.getD last) = symbols := by
    apply List.ext_getElem
    · rw [List.length_map, List.length_range]
    · intro p inside within
      simp [within]
  cases entry with
  | none =>
      refine ⟨⟨base, List.range symbols.length, none⟩,
        ⟨sections, fun p => symbols[p]?.getD ⟨[], .invalid, 0, 0, 0⟩, []⟩, List.nodup_range, ?_⟩
      simp only [Binary.image, numbered, Option.map_none]
  | some entry =>
      cases entry with
      | listed index =>
          have inside : index ∈ List.range symbols.length :=
            List.mem_range.mpr (listed index rfl)
          have place : (List.range symbols.length).idxOf index = index := by
            have same := List.nodup_range.idxOf_getElem index (by simpa using listed index rfl)
            rwa [List.getElem_range] at same
          refine ⟨⟨base, List.range symbols.length, some index⟩,
            ⟨sections, fun p => symbols[p]?.getD ⟨[], .invalid, 0, 0, 0⟩, []⟩,
            List.nodup_range, ?_⟩
          simp only [Binary.image, numbered, Option.map_some, entryPoint, if_pos inside, place]
      | separate symbol =>
          refine ⟨⟨base, List.range symbols.length, some symbols.length⟩,
            ⟨sections, fun p => symbols[p]?.getD symbol, []⟩, List.nodup_range, ?_⟩
          simp [Binary.image, numbered, entryPoint]

section Described

variable {Output : Type} {w : Workspace Output}

theorem entrySymbol?_of_known (known : b.entry = some entry) :
    (b.image w).entrySymbol? = some (w.symbols entry) := by
  rw [entrySymbol?_image, known, Option.map_some]

theorem entry_of_known (known : b.entry = some entry) :
    (b.image w).entry = some (b.entryPoint w.symbols entry) := by
  rw [image, known, Option.map_some]

/-- What the image is encoded to, in terms of the symbols that the binary refers to. -/
theorem encode_of_valid (sections : w.sections = [code]) (known : b.entry = some entry)
    (entryInCode : (w.symbols entry).sectionIndex = 0) (aligned : b.base.toNat % pageSize = 0)
    (inCode : ∀ p ∈ b.symbols, (w.symbols p).sectionIndex = 0) :
    encode (b.image w) =
      ⟨.ok (fileBytes b.base (placeSymbol b.base (w.symbols entry)).address code),
        ⟨b.base, [placeSection b.base code], (b.symbols.map w.symbols).map (placeSymbol b.base),
          some (placeEntry b.base (b.entryPoint w.symbols entry))⟩⟩ := by
  apply Elf.encode_of_valid sections (entry_of_known known) (entrySymbol?_of_known known)
    entryInCode aligned
  intro s member
  obtain ⟨p, listed, rfl⟩ := List.mem_map.mp member
  exact inCode p listed

end Described

theorem runOn_emit (bytes : List UInt8) (w : Workspace (List UInt8)) :
    runOn (emit bytes) w = (.ok (), { w with output := w.output ++ bytes }) := rfl

theorem runOn_layOutInPlace (distinct : b.symbols.Nodup) (w : Workspace (List UInt8)) :
    runOn (b.layOutInPlace code entry) w =
      match placing w.symbols (b.touched entry) with
      | .ok () => (.ok (),
          ⟨[placeSection b.base code], placed b.base
            ((b.touched entry).takeWhile (isInCode ∘ w.symbols)) w.symbols,
            w.output ++ fileBytes b.base (placed b.base
              ((b.touched entry).takeWhile (isInCode ∘ w.symbols)) w.symbols entry).address code⟩)
      | .error e => (.error e,
          ⟨[placeSection b.base code], placed b.base
            ((b.touched entry).takeWhile (isInCode ∘ w.symbols)) w.symbols, w.output⟩) := by
  rw [layOutInPlace, runOn_bind, runOn_modify]
  dsimp only
  rw [runOn_bind, runOn_forM_placeInPlace (nodup_touched distinct)]
  dsimp only
  cases placing w.symbols (b.touched entry) with
  | error e => rfl
  | ok done =>
      simp only [runOn_bind, runOn_get, runOn_emit, fileBytes, List.append_assoc]

/-- How encoding a binary in place ends, by what its image is encoded to. -/
structure Encoded (b : Binary) (w : Workspace (List UInt8)) (ended : Except Error Unit)
    (after : Workspace (List UInt8)) : Prop where
  result : ended = (encode (b.image w)).result.map fun _ => ()
  image : b.image after = (encode (b.image w)).image
  /-- The file is written behind what is there, or nothing is written. -/
  output : after.output =
    match (encode (b.image w)).result with
    | .ok file => w.output ++ file
    | .error _ => w.output
  symbols : ∀ entry, b.entry = some entry → ended = .ok () →
    after.symbols = placed b.base (b.touched entry) w.symbols

section Cases

variable {w : Workspace (List UInt8)}

theorem encoded_of_refused {e : Error} (refused : encode (b.image w) = ⟨.error e, b.image w⟩) :
    Encoded b w (.error e) w where
  result := by rw [refused]; rfl
  image := by rw [refused]
  output := by rw [refused]
  symbols := fun _ _ impossible => by cases impossible

variable (sections : w.sections = [code]) (known : b.entry = some entry)
  (entryInCode : (w.symbols entry).sectionIndex = 0) (aligned : b.base.toNat % pageSize = 0)

include sections known entryInCode aligned

theorem encoded_of_stuck {p : Nat} {rest : List Nat} (distinct : b.symbols.Nodup)
    (stuck : b.symbols.dropWhile (isInCode ∘ w.symbols) = p :: rest) :
    Encoded b w (.error (.symbolSection (w.symbols p).name (w.symbols p).sectionIndex))
      ⟨[placeSection b.base code],
        placed b.base (b.symbols.takeWhile (isInCode ∘ w.symbols)) w.symbols, w.output⟩ := by
  have dropped : (b.image w).symbols.dropWhile isInCode = w.symbols p :: rest.map w.symbols := by
    rw [image, List.dropWhile_map, stuck, List.map_cons]
  have encoded : encode (b.image w) =
      ⟨.error (.symbolSection (w.symbols p).name (w.symbols p).sectionIndex),
        { b.image w with
          sections := [placeSection b.base code]
          symbols := ((b.image w).symbols.takeWhile isInCode).map (placeSymbol b.base) ++
            (b.image w).symbols.dropWhile isInCode }⟩ := by
    rw [encode_eq_layOut sections (entry_of_known known) (entrySymbol?_of_known known) entryInCode
      aligned]
    simp only [layOut, dropped]
    rfl
  refine
    { result := by rw [encoded]; rfl
      image := ?_
      output := by rw [encoded]
      symbols := fun _ _ impossible => by cases impossible }
  -- A separate entry is not among the symbols that have been updated.
  have sameEntry : b.entryPoint
      (placed b.base (b.symbols.takeWhile (isInCode ∘ w.symbols)) w.symbols) entry =
        b.entryPoint w.symbols entry := by
    unfold entryPoint
    split
    · rfl
    · rename_i separate
      rw [placed_of_not_mem fun member => separate ((List.takeWhile_sublist _).subset member)]
  rw [encoded]
  simp only [image, known, Option.map_some, map_placed_takeWhile distinct, sameEntry]

theorem encoded_of_complete (inCode : ∀ p ∈ b.symbols, (w.symbols p).sectionIndex = 0) :
    Encoded b w (.ok ())
      ⟨[placeSection b.base code], placed b.base (b.touched entry) w.symbols,
        w.output ++ fileBytes b.base (placeSymbol b.base (w.symbols entry)).address code⟩ := by
  have encoded := encode_of_valid sections known entryInCode aligned inCode
  have sameEntry : b.entryPoint (placed b.base (b.touched entry) w.symbols) entry =
      placeEntry b.base (b.entryPoint w.symbols entry) := by
    unfold entryPoint
    split
    · rfl
    · rw [placed_of_mem (mem_touched_iff.mpr (Or.inr rfl))]
      rfl
  have sameSymbols : b.symbols.map (placed b.base (b.touched entry) w.symbols) =
      (b.symbols.map w.symbols).map (placeSymbol b.base) := by
    rw [List.map_map]
    exact List.map_congr_left fun p member => placed_of_mem (mem_touched_iff.mpr (Or.inl member))
  refine
    { result := by rw [encoded]; rfl
      image := ?_
      output := by rw [encoded]
      symbols := ?_ }
  · rw [encoded]
    simp only [image, known, Option.map_some, sameEntry, sameSymbols]
  · intro other same _
    rw [known, Option.some.injEq] at same
    rw [same]

end Cases

theorem encoded_encodeInPlace (distinct : b.symbols.Nodup) (w : Workspace (List UInt8)) :
    Encoded b w (runOn b.encodeInPlace w).1 (runOn b.encodeInPlace w).2 := by
  rw [encodeInPlace, runOn_bind, runOn_get]
  dsimp only
  split
  · rename_i code entry sections known
    have found := entrySymbol?_of_known (w := w) known
    have described := entry_of_known (w := w) known
    have sameSections : (b.image w).sections = [code] := sections
    split
    · rename_i outside
      exact encoded_of_refused (by simp only [encode, sameSections, described, found, outside,
        ne_eq, not_false_eq_true, if_true])
    · rename_i entryInCode
      rw [not_not] at entryInCode
      split
      · rename_i unaligned
        have sameBase : (b.image w).base = b.base := rfl
        exact encoded_of_refused (by simp [encode, sameSections, described, found, entryInCode,
          sameBase, unaligned])
      · rename_i aligned
        rw [not_not] at aligned
        rw [runOn_layOutInPlace distinct]
        cases stuck : b.symbols.dropWhile (isInCode ∘ w.symbols) with
        | cons p rest =>
            obtain ⟨taken, others, dropped⟩ := touched_of_stuck entry stuck
            rw [placing, dropped, taken]
            exact encoded_of_stuck sections known entryInCode aligned distinct stuck
        | nil =>
            have inCode : ∀ p ∈ b.symbols, (w.symbols p).sectionIndex = 0 := fun p member =>
              of_decide_eq_true (List.dropWhile_eq_nil_iff.mp stuck p member)
            have all : ∀ p ∈ b.touched entry, (isInCode ∘ w.symbols) p = true := by
              intro p member
              rcases mem_touched_iff.mp member with listed | rfl
              · exact decide_eq_true (inCode p listed)
              · exact decide_eq_true entryInCode
            rw [placing, List.dropWhile_eq_nil_iff.mpr all, List.takeWhile_eq_self_iff.mpr all]
            dsimp only
            rw [placed_of_mem (mem_touched_iff.mpr (Or.inr rfl))]
            exact encoded_of_complete sections known entryInCode aligned inCode
  · rename_i code sections known
    exact encoded_of_refused (by simp [encode, image, sections, known])
  · rename_i withEntry withoutEntry
    have notOne : ∀ code, (b.image w).sections ≠ [code] := by
      intro code sections
      cases known : b.entry with
      | none => exact withoutEntry code sections known
      | some entry => exact withEntry code entry sections known
    apply encoded_of_refused
    unfold encode
    split
    · exact absurd (by assumption) (notOne _)
    · exact absurd (by assumption) (notOne _)
    · rfl

/-! ### Buffers and other writers -/

/-- What is left when a binary has been written: the file, and the symbols in their places. -/
structure Written (b : Binary) (w after : Workspace (List UInt8)) (code : Section) (entry : Nat)
    (file : List UInt8) : Prop where
  sections : w.sections = [code]
  known : b.entry = some entry
  encoded : encode (b.image w) = ⟨.ok file, b.image after⟩
  output : after.output = w.output ++ file
  describes : Describes file b.base code (b.base + 176 + (w.symbols entry).offset)
  updated : ∀ p, p ∈ b.symbols ∨ p = entry →
    after.symbols p = { w.symbols p with
      offset := 176 + (w.symbols p).offset
      address := b.base + 176 + (w.symbols p).offset } ∧
    (after.symbols p).address - b.base = (after.symbols p).offset
  kept : ∀ p, p ∉ b.symbols → p ≠ entry → after.symbols p = w.symbols p

theorem address_sub_base (base : UInt64) (s : Symbol) :
    (placeSymbol base s).address - base = (placeSymbol base s).offset := by
  rw [placeSymbol, UInt64.add_assoc, UInt64.add_comm base, UInt64.add_sub_cancel]

/-- The conditions on an image, in terms of the symbols that the binary refers to. -/
theorem conditions_of_image (w : Workspace (List UInt8)) :
    (∃ file, (encode (b.image w)).result = .ok file) ↔
      w.sections.length = 1 ∧ (∃ p, b.entry = some p ∧ (w.symbols p).sectionIndex = 0) ∧
        b.base.toNat % pageSize = 0 ∧ ∀ p ∈ b.symbols, (w.symbols p).sectionIndex = 0 := by
  rw [encode_eq_ok_iff, entrySymbol?_image]
  simp only [image, Option.map_eq_some_iff, List.forall_mem_map, exists_exists_and_eq_and]

theorem runOn_encodeInPlace_of_ok (distinct : b.symbols.Nodup) {w : Workspace (List UInt8)}
    {file : List UInt8} (sections : w.sections = [code]) (known : b.entry = some entry)
    (result : (encode (b.image w)).result = .ok file) :
    runOn b.encodeInPlace w =
      (.ok (), ⟨[placeSection b.base code], placed b.base (b.touched entry) w.symbols,
        w.output ++ file⟩) := by
  obtain ⟨-, ⟨other, same, entryInCode⟩, aligned, inCode⟩ :=
    (conditions_of_image w).mp ⟨file, result⟩
  rw [known, Option.some.injEq] at same
  subst same
  have encoded := encoded_encodeInPlace distinct w
  have ended := encoded.result
  have placedSections := congrArg Image.sections encoded.image
  have output := encoded.output
  rw [result] at ended output
  rw [encode_of_valid sections known entryInCode aligned inCode] at placedSections
  have symbols := encoded.symbols entry known ended
  exact Prod.ext ended (Workspace.ext placedSections symbols output)

theorem written_of_ok (distinct : b.symbols.Nodup) {w : Workspace (List UInt8)}
    {file : List UInt8} (addressable : ∀ code ∈ w.sections, Addressable code.data.length)
    (result : (encode (b.image w)).result = .ok file) :
    ∃ code entry, Written b w (runOn b.encodeInPlace w).2 code entry file := by
  obtain ⟨one, ⟨entry, known, entryInCode⟩, aligned, inCode⟩ :=
    (conditions_of_image w).mp ⟨file, result⟩
  obtain ⟨code, sections⟩ := List.length_eq_one_iff.mp one
  have encoded := encoded_encodeInPlace distinct w
  have ran := runOn_encodeInPlace_of_ok distinct sections known result
  have bytes := result
  rw [encode_of_valid sections known entryInCode aligned inCode, Except.ok.injEq] at bytes
  refine ⟨code, entry,
    { sections := sections
      known := known
      encoded := by rw [encoded.image, ← result]
      output := by rw [ran]
      describes := ?_
      updated := ?_
      kept := ?_ }⟩
  · rw [← bytes]
    exact describes_fileBytes aligned (addressable code (by simp [sections]))
  · intro p given
    have place : (runOn b.encodeInPlace w).2.symbols p = placeSymbol b.base (w.symbols p) := by
      rw [ran]
      exact placed_of_mem (mem_touched_iff.mpr given)
    rw [place]
    exact ⟨rfl, address_sub_base _ _⟩
  · intro p unlisted notEntry
    rw [ran]
    exact placed_of_not_mem fun member =>
      (mem_touched_iff.mp member).elim unlisted notEntry

theorem runOn_encodeTo {State Failure : Type} (write : List UInt8 → InPlace State Failure Unit)
    (w : Workspace State) :
    runOn (b.encodeTo write) w =
      match runOn b.encodeInPlace ⟨w.sections, w.symbols, []⟩ with
      | (.ok (), v) => ((runOn (write v.output) w.output).1.mapError .inr,
          ⟨v.sections, v.symbols, (runOn (write v.output) w.output).2⟩)
      | (.error e, v) => (.error (.inl e), ⟨v.sections, v.symbols, w.output⟩) := rfl

/-- Any other writer gets what a buffer gets, in one go. -/
theorem runOn_encodeTo_of_ok (distinct : b.symbols.Nodup) {w : Workspace (List UInt8)}
    {file : List UInt8} (sections : w.sections = [code]) (known : b.entry = some entry)
    (result : (encode (b.image w)).result = .ok file)
    {State Failure : Type} (write : List UInt8 → InPlace State Failure Unit) (s : State) :
    runOn (b.encodeTo write) ⟨w.sections, w.symbols, s⟩ =
      ((runOn (write file) s).1.mapError .inr, ⟨(runOn b.encodeInPlace w).2.sections,
        (runOn b.encodeInPlace w).2.symbols, (runOn (write file) s).2⟩) := by
  have anew := runOn_encodeInPlace_of_ok (w := ⟨w.sections, w.symbols, []⟩) distinct sections known
    result
  rw [List.nil_append] at anew
  rw [runOn_encodeInPlace_of_ok distinct sections known result, runOn_encodeTo, anew]

/-- A binary that cannot be encoded is not handed to the writer. -/
theorem runOn_encodeTo_of_error (distinct : b.symbols.Nodup) {w : Workspace (List UInt8)}
    {e : Error} (result : (encode (b.image w)).result = .error e)
    {State Failure : Type} (write : List UInt8 → InPlace State Failure Unit) (s : State) :
    (runOn (b.encodeTo write) ⟨w.sections, w.symbols, s⟩).1 = .error (.inl e) ∧
      (runOn (b.encodeTo write) ⟨w.sections, w.symbols, s⟩).2.output = s := by
  have anew := (encoded_encodeInPlace distinct ⟨w.sections, w.symbols, []⟩).result
  have sameImage : b.image (⟨w.sections, w.symbols, []⟩ : Workspace (List UInt8)) = b.image w := rfl
  rw [sameImage, result] at anew
  rw [runOn_encodeTo]
  cases ran : runOn b.encodeInPlace ⟨w.sections, w.symbols, []⟩ with
  | mk ended v =>
      rw [ran] at anew
      cases anew
      exact ⟨rfl, rfl⟩

/-- A binary is encoded exactly if it has one section, in which its entry and all its symbols lie,
and starts at the beginning of a page.  Then the whole file is written, and each symbol that is
listed or the entry has been given its place once.  Otherwise nothing is written.  All this is the
same for a buffer and for any other writer, which gets the file in one go. -/
theorem files_are_written_whole (b : Binary) (distinct : b.symbols.Nodup)
    (w : Workspace (List UInt8))
    (addressable : ∀ code ∈ w.sections, Addressable code.data.length) :
    ((∃ file, (encode (b.image w)).result = .ok file) ↔
      w.sections.length = 1 ∧ (∃ p, b.entry = some p ∧ (w.symbols p).sectionIndex = 0) ∧
        b.base.toNat % 0x1000 = 0 ∧ ∀ p ∈ b.symbols, (w.symbols p).sectionIndex = 0) ∧
    (∀ e, (encode (b.image w)).result = .error e →
      (runOn b.encodeInPlace w).1 = .error e ∧ (runOn b.encodeInPlace w).2.output = w.output ∧
      ∀ {State Failure : Type} (write : List UInt8 → InPlace State Failure Unit) (s : State),
        (runOn (b.encodeTo write) ⟨w.sections, w.symbols, s⟩).1 = .error (.inl e) ∧
        (runOn (b.encodeTo write) ⟨w.sections, w.symbols, s⟩).2.output = s) ∧
    ∀ file, (encode (b.image w)).result = .ok file →
      (∃ code entry, Written b w (runOn b.encodeInPlace w).2 code entry file) ∧
      (runOn b.encodeInPlace w).1 = .ok () ∧
      ∀ {State Failure : Type} (write : List UInt8 → InPlace State Failure Unit) (s : State),
        runOn (b.encodeTo write) ⟨w.sections, w.symbols, s⟩ =
          ((runOn (write file) s).1.mapError .inr, ⟨(runOn b.encodeInPlace w).2.sections,
            (runOn b.encodeInPlace w).2.symbols, (runOn (write file) s).2⟩) := by
  have encoded := encoded_encodeInPlace distinct w
  refine ⟨conditions_of_image w, ?_, ?_⟩
  · intro e result
    have ended := encoded.result
    have output := encoded.output
    rw [result] at ended output
    exact ⟨ended, output, fun write s => runOn_encodeTo_of_error distinct result write s⟩
  · intro file result
    obtain ⟨code, entry, written⟩ := written_of_ok distinct addressable result
    have ended := encoded.result
    rw [result] at ended
    exact ⟨⟨code, entry, written⟩, ended, fun write s =>
      runOn_encodeTo_of_ok distinct written.sections written.known result write s⟩

/-- Two symbols at different places, one listed and one that is only the entry. -/
def sampleBinary (base : UInt64) : Binary := ⟨base, [4], some 7⟩

def sampleWorkspace : Workspace (List UInt8) :=
  { sections := [⟨ascii "code", 0, 0, ⟨false, false, true⟩, [195, 232, 250, 255, 255, 255, 195]⟩]
    symbols := fun p => ⟨ascii "here", .exported, 0, UInt64.ofNat (p - 4), 0⟩
    output := [1, 2, 3] }

/-- The code may be executed, and read although its section does not say so.  A writer may refuse
the file.  With another base nothing is written. -/
theorem files_are_written_whole_sample :
    (∃ code entry file,
      Written (sampleBinary 0x400000) sampleWorkspace
        (runOn (sampleBinary 0x400000).encodeInPlace sampleWorkspace).2 code entry file ∧
      file.length = 183 ∧ (fileFields file).entry = 0x4000B3 ∧
      (runOn ((sampleBinary 0x400000).encodeTo fun _ => throw (ascii "full"))
        ⟨sampleWorkspace.sections, sampleWorkspace.symbols, ()⟩).1 =
          .error (.inr (ascii "full"))) ∧
    (runOn (sampleBinary 0x400010).encodeInPlace sampleWorkspace).2.output = [1, 2, 3] := by
  have short : ∀ code ∈ sampleWorkspace.sections, Addressable code.data.length := by
    unfold Addressable
    decide
  have whole (base : UInt64) :=
    files_are_written_whole (sampleBinary base) (List.nodup_singleton 4) sampleWorkspace short
  constructor
  · obtain ⟨conditions, -, succeeds⟩ := whole 0x400000
    obtain ⟨file, result⟩ := conditions.mpr ⟨rfl, ⟨7, rfl, rfl⟩, by decide, by decide⟩
    obtain ⟨⟨code, entry, written⟩, -, others⟩ := succeeds file result
    obtain rfl := (List.cons.inj written.sections).1
    obtain rfl := Option.some.inj written.known
    refine ⟨_, 7, file, written, written.describes.length, ?_, ?_⟩
    · rw [written.describes.header]
      decide +kernel
    · rw [others]
      rfl
  · obtain ⟨-, fails, -⟩ := whole 0x400010
    exact (fails (.unalignedBase 0x400010) (by decide +kernel)).2.1

end Binary

end Asm64.Elf
