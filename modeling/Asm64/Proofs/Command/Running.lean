import Asm64.Proofs.Command.Product
import Asm64.Proofs.Image.EntryPoint

/-!
# Running a program

The run command does nothing to the files by itself.  It calls one function, which is the code at
the entry point of the program, and the files are what the function leaves of them.
-/

namespace Asm64

/-- No function changes a file. -/
def Machine.KeepsFiles (m : Machine) : Prop := ∀ f files, (m.call f files).files = files

namespace Command.Run

open Command.Session (Leaves)

/-- A block of executable memory that holds the code of the located object, and in it the offset of
a label. -/
def IsEntry (o : Object) (entry : Text) (f : Function) : Prop :=
  ∃ located l capacity, o.locate = .ok located ∧ located.label? entry = some l ∧
    f.block = .mapped located.code capacity true ∧ f.offset = l.value ∧
    0 ≤ f.offset ∧ f.offset < located.code.length

theorem mapped_of_write {bytes : List UInt8} {capacity : Nat} {written : CodeBlock.WriteOutcome}
    (isWritten : (CodeBlock.mapped [] capacity false).write bytes = .ok written)
    (complete : written.error = none) : written.block = .mapped bytes capacity false := by
  cases isWritten
  have enough : bytes.length ≤ capacity := by simpa using complete
  simp [List.take_of_length_le enough]

theorem mapped_of_loadCode {code : List UInt8} {log : List Log.Entry} {block : CodeBlock}
    (loaded : Log.resultAfter log (loadCode code) = .ok block) :
    ∃ capacity, block = .mapped code capacity true := by
  simp only [loadCode, Log.resultAfter_bind, Log.resultAfter_require, bind_eq_ok_iff,
    mapError_eq_ok_iff] at loaded
  obtain ⟨empty, allocated, -, -, written, isWritten, loaded⟩ := loaded
  split at loaded
  · cases loaded
  · next complete =>
      simp only [Log.resultAfter_bind, Log.resultAfter_require, Log.resultAfter_note,
        Log.resultAfter_pure, bind_eq_ok_iff, mapError_eq_ok_iff] at loaded
      obtain ⟨finished, closed, -, -, same⟩ := loaded
      rw [CodeBlock.allocate, CodeBlock.allocateIn, if_neg (by omega)] at allocated
      cases allocated
      rw [mapped_of_write isWritten complete] at closed
      cases closed
      exact ⟨_, (Except.ok.inj same).symm⟩

theorem isEntry_of_function {machine : Machine} {o : Object} {entry : Text} {f : Function}
    {log : List Log.Entry} (found : Log.resultAfter log (function machine o entry) = .ok f) :
    IsEntry o entry f := by
  simp only [function, Log.resultAfter_bind, Log.resultAfter_require, Log.resultAfter_note,
    Log.resultAfter_pure, bind_eq_ok_iff, mapError_eq_ok_iff] at found
  obtain ⟨located, succeeded, offset, isOffset, block, loaded, code, isFunction, -, -, -, -,
    same⟩ := found
  cases same
  obtain ⟨l, labelled, inside, rfl⟩ := entryOffset_eq_ok_iff.mp isOffset
  obtain ⟨capacity, rfl⟩ := mapped_of_loadCode loaded
  have nonnegative : 0 ≤ l.value := by
    by_contra negative
    rw [CodeBlock.function, if_pos (Or.inl (by omega))] at isFunction
    cases isFunction
  exact ⟨located, l, capacity, succeeded, labelled, rfl, rfl, nonnegative, inside⟩

/-- The arguments ask for a call of the function at the entry point of the program that they
name. -/
def Calls (files : FileStore) (arguments : List Text) (f : Function) : Prop :=
  ∃ parsed config entry o, Flag.parse outline.flags arguments = .ok parsed ∧
    parsed.isOn "help" = false ∧ parsed.arguments ≠ [] ∧
    readConfig files ((parsed.value? "config").getD []) = .ok config ∧
    entryPoint config parsed = .ok entry ∧
    files.loaded (assemblerOf config) parsed.arguments [] = .ok o ∧ IsEntry o entry f

/-- How a session ends that may call a function: without having called it, or with what it leaves.
After the call only the printing of its result can fail. -/
inductive Ending (machine : Machine) (files : FileStore) (arguments : List Text) :
    Except Error Unit → Option Change → Prop where
  | uncalled {result : Except Error Unit} : Ending machine files arguments result none
  | called {result : Except Error Unit} {f : Function} : machine.runsCode = true →
    Calls files arguments f → (∀ e, result = .error e → ∃ cause, e = .print cause) →
    Ending machine files arguments result (some (.call (machine.call f files).files))

theorem leaves (machine : Machine) (files : FileStore) (arguments : List Text) :
    (run machine files arguments).Leaves none (Ending machine files arguments) := by
  refine .withFlags (fun _ _ => .uncalled) (fun _ _ _ => .uncalled) fun parsed read proceeds => ?_
  refine .ite (fun _ => .misused .uncalled) fun named => ?_
  refine .bind (.require (fun _ _ => .uncalled) fun config configured => ?_)
  refine .bind (.require (fun _ _ => .uncalled) fun entry entered => ?_)
  refine .bind (.logged (fun _ _ => .uncalled) fun o loaded => ?_)
  refine .bind (.ite (fun runsCode => ?_) fun _ => .throw .uncalled)
  refine .bind (.logged (fun _ _ => .uncalled) fun f found => ?_)
  have calls : Calls files arguments f := ⟨parsed, config, entry, o, read, proceeds,
    by simpa using named, configured, entered, loaded, isEntry_of_function found⟩
  refine .call (.print (fun cause => ?_) ?_)
  · refine .called runsCode calls ?_
    rintro _ ⟨⟩
    exact ⟨cause, rfl⟩
  · exact .called runsCode calls fun _ impossible => (nomatch impossible)

/-- What a call of the command may do to the files. -/
structure Contract (machine : Machine) (files : FileStore) (arguments : List Text)
    (result : Except Error Unit) (after : FileStore) : Prop where
  /-- A failure leaves the files as they are, unless it is the result that cannot be printed. -/
  failure : ∀ e, result = .error e → after = files ∨ ∃ cause, e = .print cause
  /-- Whatever changes, it is the function that changes it. -/
  confined : after = files ∨ ∃ f, Calls files arguments f ∧ machine.runsCode = true ∧
    after = (machine.call f files).files
  unchanged : machine.KeepsFiles → after = files

theorem contract (printer : Printer) (machine : Machine) (files : FileStore)
    (arguments : List Text) :
    Contract machine files arguments (resultOf (run machine) printer files arguments)
      (filesAfter (run machine) printer files arguments) := by
  obtain ⟨change, ending, after⟩ := exists_ending printer (leaves machine files arguments)
  rw [after]
  generalize resultOf (run machine) printer files arguments = result at ending
  cases ending with
  | uncalled => exact ⟨fun _ _ => .inl rfl, .inl rfl, fun _ => rfl⟩
  | called runsCode calls refused =>
      exact ⟨fun e failed => .inr (refused e failed), .inr ⟨_, calls, runsCode, rfl⟩,
        fun keeps => keeps _ files⟩

end Command.Run

end Asm64
