import Mathlib.Data.List.Induction
import Asm64.CodeBlock

/-!
# The modes of a block of memory

A block is writable, then executable, then closed, and there is no way back.  What is written to it
is kept up to its capacity while it is writable, and stays as it is while it is executable.
-/

namespace Asm64.CodeBlock

/-! ### Operations -/

inductive Operation where
  | write (bytes : List UInt8)
  | makeExecutable
  | function (offset : Int)
  | close
deriving DecidableEq, Repr

def Operation.offered : Operation → List UInt8
  | write bytes => bytes
  | _ => []

inductive Answer where
  | done
  | written (count : Nat) (error : Option Error)
  | function (code : List UInt8)
  | failed (error : Error)
  | misused (misuse : Misuse)
deriving DecidableEq, Repr

/-- The block after an operation, with the answer.  A failure and misuse change nothing. -/
def perform (block : CodeBlock) : Operation → CodeBlock × Answer
  | .write bytes =>
    match block.write bytes with
    | .ok outcome => (outcome.block, .written outcome.count outcome.error)
    | .error misuse => (block, .misused misuse)
  | .makeExecutable => change block.makeExecutable
  | .function offset =>
    match block.function offset with
    | .ok code => (block, .function code)
    | .error misuse => (block, .misused misuse)
  | .close => change block.close
where
  change : Except Error CodeBlock → CodeBlock × Answer
    | .ok changed => (changed, .done)
    | .error e => (block, .failed e)

def after (block : CodeBlock) (history : List Operation) : CodeBlock :=
  history.foldl (fun block operation => (block.perform operation).1) block

def Succeeds (block : CodeBlock) (operation : Operation) (history : List Operation) : Prop :=
  ∃ front back, history = front ++ operation :: back ∧
    ((block.after front).perform operation).2 = .done

def isExecutable : CodeBlock → Bool
  | closed => false
  | mapped _ _ isExecutable => isExecutable

variable {block : CodeBlock} {code : List UInt8} {capacity : Nat} {history : List Operation}

theorem after_append (block : CodeBlock) (front back : List Operation) :
    block.after (front ++ back) = (block.after front).after back :=
  List.foldl_append

/-! ### Modes that are kept -/

theorem perform_closed (operation : Operation) : (closed.perform operation).1 = closed := by
  cases operation <;> rfl

theorem after_closed (history : List Operation) : closed.after history = closed := by
  induction history with
  | nil => rfl
  | cons operation rest inductionHypothesis =>
      rw [after, List.foldl_cons, perform_closed]
      exact inductionHypothesis

theorem perform_executable {operation : Operation} (unclosed : operation ≠ .close) :
    ((mapped code capacity true).perform operation).1 = mapped code capacity true := by
  cases operation with
  | write | makeExecutable => rfl
  | function offset =>
      rw [perform]
      split <;> rfl
  | close => exact absurd rfl unclosed

theorem after_executable (unclosed : .close ∉ history) :
    (mapped code capacity true).after history = mapped code capacity true := by
  induction history with
  | nil => rfl
  | cons operation rest inductionHypothesis =>
      rw [List.mem_cons, not_or] at unclosed
      rw [after, List.foldl_cons, perform_executable (Ne.symm unclosed.1)]
      exact inductionHypothesis unclosed.2

/-! ### What operations lead to -/

def offered (history : List Operation) : List UInt8 := history.flatMap (·.offered)

theorem offered_concat (history : List Operation) (operation : Operation) :
    offered (history ++ [operation]) = offered history ++ operation.offered := by
  rw [offered, List.flatMap_append, List.flatMap_singleton, offered]

/-- The block of a capacity that operations lead to, from the empty one that can be written to. -/
inductive Reaches (capacity : Nat) : List Operation → CodeBlock → Prop
  | writable {history : List Operation} : .makeExecutable ∉ history → .close ∉ history →
      Reaches capacity history (mapped ((offered history).take capacity) capacity false)
  | executable {front back : List Operation} : .makeExecutable ∉ front → .close ∉ front →
      .close ∉ back →
      Reaches capacity (front ++ .makeExecutable :: back)
        (mapped ((offered front).take capacity) capacity true)
  | closed {history : List Operation} : .close ∈ history → Reaches capacity history closed

/-- What there is room for is taken, and the rest of what is offered is left out. -/
theorem perform_write (before bytes : List UInt8) (capacity : Nat) :
    (mapped (before.take capacity) capacity false).perform (.write bytes) =
      let taken := bytes.take (capacity - (before.take capacity).length)
      (mapped ((before ++ bytes).take capacity) capacity false,
        .written taken.length (if taken.length < bytes.length then some .capacity else none)) := by
  have code : (before ++ bytes).take capacity =
      before.take capacity ++ bytes.take (capacity - (before.take capacity).length) := by
    rw [List.take_append, List.length_take]
    congr 2
    omega
  rw [code]
  rfl

theorem Reaches.concat (reaches : Reaches capacity history block) (operation : Operation) :
    Reaches capacity (history ++ [operation]) (block.perform operation).1 := by
  cases reaches with
  | closed isClosed =>
      rw [perform_closed]
      exact .closed (List.mem_append_left _ isClosed)
  | @executable front back written unclosed stays =>
      by_cases closes : operation = .close
      · subst closes
        exact .closed (by simp)
      · rw [perform_executable closes, List.append_assoc, List.cons_append]
        exact .executable written unclosed (by simp [stays, Ne.symm closes])
  | writable written unclosed =>
      have kept {operation : Operation} (offersNothing : operation.offered = [])
          (other : .makeExecutable ≠ operation) (stays : .close ≠ operation) :
          Reaches capacity (history ++ [operation])
            (mapped ((offered history).take capacity) capacity false) := by
        have same : offered (history ++ [operation]) = offered history := by
          rw [offered_concat, offersNothing, List.append_nil]
        rw [← same]
        exact .writable (by simp [written, other]) (by simp [unclosed, stays])
      cases operation with
      | write bytes =>
          rw [perform_write]
          have more : offered history ++ bytes = offered (history ++ [.write bytes]) :=
            (offered_concat history (.write bytes)).symm
          rw [more]
          exact .writable (by simp [written]) (by simp [unclosed])
      | makeExecutable => exact .executable written unclosed (List.not_mem_nil)
      | function offset => exact kept rfl nofun nofun
      | close => exact .closed (by simp)

theorem reaches_after (capacity : Nat) (history : List Operation) :
    Reaches capacity history ((mapped [] capacity false).after history) := by
  induction history using List.reverseRecOn with
  | nil =>
      have start : Reaches capacity [] (mapped ((offered []).take capacity) capacity false) :=
        .writable List.not_mem_nil List.not_mem_nil
      rwa [offered, List.flatMap_nil, List.take_nil] at start
  | append_singleton history operation inductionHypothesis =>
      rw [after_append]
      exact inductionHypothesis.concat operation

theorem Reaches.length_le_capacity (reaches : Reaches capacity history block) :
    block.length ≤ block.capacity := by
  cases reaches with
  | writable | executable => exact List.length_take_le _ _
  | closed => exact Nat.le_refl 0

/-! ### What has been done -/

theorem function_answered_iff {offset : Int} :
    (∃ code, (block.perform (.function offset)).2 = .function code) ↔
      block.isExecutable = true ∧ 0 ≤ offset ∧ offset < block.length := by
  cases block with
  | closed => simp [perform, function, isExecutable]
  | mapped code capacity executable =>
      cases executable with
      | false => simp [perform, function, isExecutable]
      | true =>
          simp only [perform, function, isExecutable, length, true_and]
          split <;> grind

theorem makeExecutable_done_iff :
    (block.perform .makeExecutable).2 = .done ↔ block ≠ closed := by
  cases block <;> simp [perform, makeExecutable, perform.change]

theorem close_done_iff : (block.perform .close).2 = .done ↔ block ≠ closed := by
  cases block <;> simp [perform, close, perform.change]

theorem after_of_close (done : block.Succeeds .close history) : block.after history = closed := by
  obtain ⟨front, back, rfl, done⟩ := done
  rw [close_done_iff] at done
  have now : ((block.after front).perform .close).1 = closed := by
    cases block.after front <;> rfl
  rw [after_append]
  exact (congrArg (·.after back) now).trans (after_closed back)

theorem after_ne_closed (unclosed : .close ∉ history) :
    (mapped [] capacity false).after history ≠ closed := by
  intro isClosed
  have reaches := reaches_after capacity history
  rw [isClosed] at reaches
  cases reaches
  contradiction

theorem succeeds_close (closes : .close ∈ history) :
    (mapped [] capacity false).Succeeds .close history := by
  obtain ⟨front, back, rfl, unclosed⟩ := List.eq_append_cons_of_mem closes
  exact ⟨front, back, rfl, close_done_iff.mpr (after_ne_closed unclosed)⟩

theorem length_after
    (writable : ¬ (mapped [] capacity false).Succeeds .makeExecutable history) :
    ((mapped [] capacity false).after history).length =
      min ((mapped [] capacity false).after history).capacity (offered history).length := by
  have reaches := reaches_after capacity history
  generalize (mapped [] capacity false).after history = now at reaches
  cases reaches with
  | writable => exact List.length_take
  | @executable front back written unclosed stays =>
      exact absurd ⟨front, back, rfl, makeExecutable_done_iff.mpr (after_ne_closed unclosed)⟩
        writable
  | closed => exact (Nat.zero_min _).symm

/-- A block that can be written to takes as many bytes as there is room for, and says so. -/
theorem write_after
    (writable : ¬ (mapped [] capacity false).Succeeds .makeExecutable history)
    (usable : ¬ (mapped [] capacity false).Succeeds .close history) (bytes : List UInt8) :
    ∃ count, (((mapped [] capacity false).after history).perform (.write bytes)).2 =
        .written count (if count < bytes.length then some .capacity else none) ∧
      ((mapped [] capacity false).after (history ++ [.write bytes])).length =
        ((mapped [] capacity false).after history).length + count := by
  rw [after_append]
  have reaches := reaches_after capacity history
  generalize (mapped [] capacity false).after history = now at reaches
  cases reaches with
  | writable =>
      refine ⟨_, congrArg Prod.snd (perform_write _ bytes capacity), ?_⟩
      rw [after, List.foldl_cons, List.foldl_nil]
      simp only [perform, write, length, List.length_append]
  | @executable front back written unclosed stays =>
      exact absurd ⟨front, back, rfl, makeExecutable_done_iff.mpr (after_ne_closed unclosed)⟩
        writable
  | closed closes => exact absurd (succeeds_close closes) usable

theorem after_of_makeExecutable {front back : List Operation}
    (done : ((block.after front).perform .makeExecutable).2 = .done) (unclosed : .close ∉ back) :
    ∃ code capacity, block.after front = mapped code capacity ((block.after front).isExecutable) ∧
      block.after (front ++ .makeExecutable :: back) = mapped code capacity true := by
  rw [makeExecutable_done_iff] at done
  rw [after_append]
  cases now : block.after front with
  | closed => exact absurd now done
  | mapped code capacity isExecutable =>
      exact ⟨code, capacity, rfl, after_executable unclosed⟩

/-- A block that is mapped is filled up to its capacity until it is executable.  From then on
nothing changes it but closing it, and what has been closed stays closed.  A function is given out
only if the block is executable and the function starts in the code. -/
theorem executable_code_is_never_written {pageSize : Nat} {n : Int}
    (allocated : allocateIn pageSize n = .ok block) (history : List Operation) :
    (block.after history).length ≤ (block.after history).capacity ∧
    (¬ block.Succeeds .makeExecutable history →
      (block.after history).length =
          min (block.after history).capacity (offered history).length ∧
      (¬ block.Succeeds .close history → ∀ bytes, ∃ count,
        ((block.after history).perform (.write bytes)).2 =
            .written count (if count < bytes.length then some .capacity else none) ∧
          (block.after (history ++ [.write bytes])).length =
            (block.after history).length + count)) ∧
    (∀ front back, history = front ++ .makeExecutable :: back →
      ((block.after front).perform .makeExecutable).2 = .done → .close ∉ back →
      block.after history = block.after (front ++ [.makeExecutable]) ∧
        (block.after history).length = (block.after front).length ∧
        (block.after history).capacity = (block.after front).capacity ∧
        (∀ bytes, (block.after history).perform (.write bytes) =
          (block.after history, .misused .writeToExecutable)) ∧
        (block.after history).perform .makeExecutable = (block.after history, .done)) ∧
    (∀ offset, (∃ code, ((block.after history).perform (.function offset)).2 = .function code) ↔
      (block.after history).isExecutable = true ∧ 0 ≤ offset ∧
        offset < (block.after history).length) ∧
    (block.Succeeds .close history →
      (block.after history).length = 0 ∧ (block.after history).capacity = 0 ∧
        (∀ bytes, (block.after history).perform (.write bytes) =
          (block.after history, .written 0 (some .closed))) ∧
        (block.after history).perform .makeExecutable = (block.after history, .failed .closed) ∧
        (block.after history).perform .close = (block.after history, .failed .closed)) := by
  obtain ⟨capacity, rfl⟩ : ∃ capacity, block = mapped [] capacity false := by
    unfold allocateIn at allocated
    split at allocated <;> cases allocated
    exact ⟨_, rfl⟩
  refine ⟨(reaches_after capacity history).length_le_capacity, fun writable => ?_, ?_,
    fun _ => function_answered_iff, ?_⟩
  · exact ⟨length_after writable, write_after writable⟩
  · rintro front back rfl done unclosed
    obtain ⟨code, room, before, now⟩ := after_of_makeExecutable done unclosed
    obtain ⟨_, _, beforeAlone, alone⟩ := after_of_makeExecutable done List.not_mem_nil
    cases before.symm.trans beforeAlone
    rw [now, alone, before]
    exact ⟨rfl, rfl, rfl, fun _ => rfl, rfl⟩
  · intro done
    rw [after_of_close done]
    exact ⟨rfl, rfl, fun _ => rfl, rfl, rfl⟩

/-! Two writes, the second of which does not fit, with a misuse between them. -/

def sampleWrites : List Operation :=
  [.write [0x31, 0xC0, 0xC3, 0x90, 0x90], .function 0, .write [0x90, 0x90, 0x90, 0x90]]

/-- The block is filled, keeps its code through a write that is too late, and ends closed. -/
theorem executable_code_is_never_written_sample :
    ∃ block, allocateIn 4 5 = .ok block ∧
      (block.after sampleWrites).length = 8 ∧
      (block.after (sampleWrites ++ .makeExecutable :: [.write [0xCC]])).length = 8 ∧
      (∃ code, ((block.after (sampleWrites ++ .makeExecutable :: [.write [0xCC]])).perform
        (.function 7)).2 = .function code) ∧
      (block.after (sampleWrites ++ [.close, .makeExecutable])).perform .close =
        (block.after (sampleWrites ++ [.close, .makeExecutable]), .failed .closed) := by
  have allocated : allocateIn 4 5 = .ok (mapped [] 8 false) := by decide
  have writes := executable_code_is_never_written allocated sampleWrites
  have executes :=
    executable_code_is_never_written allocated (sampleWrites ++ .makeExecutable :: [.write [0xCC]])
  have closes :=
    executable_code_is_never_written allocated (sampleWrites ++ [.close, .makeExecutable])
  have neverExecutable : ¬ (mapped [] 8 false).Succeeds .makeExecutable sampleWrites := by
    rintro ⟨front, back, whole, -⟩
    have member : .makeExecutable ∈ sampleWrites := whole ▸ by simp
    exact absurd member (by decide)
  have filled := (writes.2.1 neverExecutable).1
  obtain ⟨-, kept, -⟩ := executes.2.2.1 sampleWrites _ rfl (by decide) (by decide)
  have done : (mapped [] 8 false).Succeeds .close (sampleWrites ++ [.close, .makeExecutable]) :=
    ⟨sampleWrites, [.makeExecutable], rfl, by decide⟩
  refine ⟨_, allocated, filled.trans (by decide), kept.trans (by decide), ?_,
    (closes.2.2.2.2 done).2.2.2.2⟩
  exact (executes.2.2.2.1 7).mpr (by decide)

end Asm64.CodeBlock
