import Asm64.Command.Assemble
import Asm64.Command.Link
import Asm64.Command.ShowCatalog
import Asm64.Proofs.Assembler.Accumulation
import Asm64.Proofs.Command.Running

/-!
# What commands do to files

The asm command and the link command write at most one file, their product, and only if nothing
failed before.  The other commands write nothing.  The code that is written of a source alone is the
code of every executable of the source.
-/

namespace Asm64

theorem Assembler.assemble_eq_ok_iff_standard (accumulateErrors : Bool) {source : Text}
    {assembly : Assembler.Assembly} :
    { Assembler.standard with accumulateErrors }.assemble source = .ok assembly ↔
      Assembler.standard.assemble source = .ok assembly := by
  cases accumulateErrors with
  | false => rfl
  | true => exact Assembler.accumulating_assemble_eq_ok_iff (a := Assembler.standard) rfl

end Asm64

namespace Asm64.Command

/-! ### The asm command -/

namespace Assemble

variable {files : FileStore} {parsed : Flag.Parsed} {source : Text} {w : FileWrite}

def productOf (files : FileStore) (parsed : Flag.Parsed) (source : Text) :
    Except Error FileWrite := do
  let config ← readConfig files ((parsed.value? "config").getD [])
  let text ← (files.read source).mapError (Error.read source)
  let assembly ← ((assemblerOf config).assemble text).mapError (Error.assemble source)
  let content ← contentOf source (parsed.isOn "raw") assembly.object
  writable files ⟨outputPath parsed source, content, false⟩

def product (files : FileStore) (parsed : Flag.Parsed) : Except Error FileWrite :=
  match parsed.arguments with
  | [source] => productOf files parsed source
  | sources => .error (.usage (.sourceCount sources.length))

/-- The listing is printed before the product is written. -/
def refusals : Refusals :=
  ⟨fun e => ∃ source cause, e = .assemble source (.listing cause), fun _ => False⟩

theorem makes_assembleFile (files : FileStore) (parsed : Flag.Parsed) (source : Text) :
    Makes refusals (assembleFile files parsed source) (productOf files parsed source) := by
  refine .requireOwn fun config => .require fun text => .require fun assembly => .note ?_
  have saves : Makes refusals (saveObject files parsed source assembly.object) _ :=
    .requireOwn fun content => .save (.note ⟨rfl, by simp⟩)
  exact .ite (fun _ => Makes.print (fun cause => ⟨source, cause, rfl⟩) saves) fun _ => saves

theorem produces : Produces run (fun _ => refusals) outline product := by
  refine .of_makes fun files arguments parsed _ => ?_
  unfold product
  cases parsed.arguments with
  | nil => exact .misused
  | cons source others =>
      cases others with
      | nil => exact makes_assembleFile files parsed source
      | cons _ _ => exact .misused

theorem exists_of_product (made : product files parsed = .ok w) :
    ∃ source config text assembly content, parsed.arguments = [source] ∧
      files.read source = .ok text ∧ (assemblerOf config).assemble text = .ok assembly ∧
      contentOf source (parsed.isOn "raw") assembly.object = .ok content ∧
      files.writeError? (outputPath parsed source) = none ∧
      w = ⟨outputPath parsed source, content, false⟩ := by
  unfold product at made
  split at made
  · next source named =>
      simp only [productOf, bind_eq_ok_iff, mapError_eq_ok_iff, writable_eq_ok_iff] at made
      obtain ⟨config, -, text, read, assembly, assembled, content, contained, free, same⟩ := made
      exact ⟨source, config, text, assembly, content, named, read, assembled, contained, free,
        same.symm⟩
  · cases made

end Assemble

/-! ### The link command -/

namespace Link

def productOf (files : FileStore) (parsed : Flag.Parsed) (output : Text) :
    Except Error FileWrite := do
  let config ← readConfig files ((parsed.value? "config").getD [])
  let entry ← entryPoint config parsed
  let object ← (files.loaded (assemblerOf config) parsed.arguments []).mapError Error.load
  let image ← (object.image entry).mapError Error.image
  let file ← (Elf.encode image).result.mapError Error.elf
  writable files ⟨output, file, true⟩

def product (files : FileStore) (parsed : Flag.Parsed) : Except Error FileWrite :=
  let output := (parsed.value? "output").getD []
  if output.isEmpty then .error (.usage .noOutput)
  else if parsed.arguments.isEmpty then .error (.usage .noInput)
  else productOf files parsed output

/-- The symbols are printed, if they are asked for, after the product has been written. -/
def refusals (arguments : List Text) : Refusals :=
  ⟨fun _ => False, fun e => ∃ parsed cause, Flag.parse outline.flags arguments = .ok parsed ∧
    parsed.isOn "map" = true ∧ e = .print cause⟩

theorem makes_linkFiles (files : FileStore) {arguments : List Text} {parsed : Flag.Parsed}
    (read : Flag.parse outline.flags arguments = .ok parsed) (output : Text) :
    Makes (refusals arguments) (linkFiles files parsed output) (productOf files parsed output) := by
  refine .requireOwn fun config => .requireOwn fun entry => .logged fun object =>
    .require fun image => .require fun file => .save (.bind (.note ?_))
  dsimp only [Session.LeadsTo]
  refine .ite (fun mapped => .print (fun cause => ⟨rfl, ?_⟩) ⟨rfl, by simp⟩)
    fun _ => .pure ⟨rfl, by simp⟩
  rintro e ⟨⟩
  exact ⟨parsed, cause, read, mapped, rfl⟩

theorem produces : Produces run refusals outline product := by
  refine .of_makes fun files arguments parsed read => ?_
  unfold product
  dsimp only
  split
  · exact .misused
  · split
    · exact .misused
    · exact makes_linkFiles files read _

variable {files : FileStore} {parsed : Flag.Parsed} {w : FileWrite}

theorem output_of_product (made : product files parsed = .ok w) :
    parsed.value? "output" = some w.path := by
  unfold product at made
  dsimp only at made
  split at made
  · cases made
  · next named =>
      split at made
      · cases made
      · simp only [productOf, bind_eq_ok_iff, mapError_eq_ok_iff, writable_eq_ok_iff] at made
        obtain ⟨_, -, _, -, _, -, _, -, _, -, -, rfl⟩ := made
        cases given : parsed.value? "output" with
        | none => simp [given] at named
        | some output => rfl

/-- The arguments ask for an executable of one file alone that starts at the label `entry`, and it
can be written. -/
def LinksAlone (files : FileStore) (arguments : List Text) (path entry output : Text) : Prop :=
  ∃ parsed config, Flag.parse outline.flags arguments = .ok parsed ∧
    parsed.isOn "help" = false ∧ parsed.arguments = [path] ∧
    parsed.value? "output" = some output ∧ files.writeError? output = none ∧
    readConfig files ((parsed.value? "config").getD []) = .ok config ∧
    (parsed.value? "entry").getD config.entry = entry

theorem entryPoint_of_identifier {config : Config} {entry : Text}
    (identifier : Text.isIdentifier entry = true)
    (asked : (parsed.value? "entry").getD config.entry = entry) :
    entryPoint config parsed = .ok entry := by
  unfold entryPoint
  cases given : parsed.value? "entry" with
  | none =>
      rw [given] at asked
      exact congrArg Except.ok asked
  | some other =>
      rw [given] at asked
      cases asked
      exact if_pos identifier

/-- The product of linking an object alone. -/
theorem product_of_loaded {config : Config} {path entry output : Text} {o : Object}
    {file : List UInt8} (named : parsed.arguments = [path])
    (given : parsed.value? "output" = some output) (free : files.writeError? output = none)
    (configured : readConfig files ((parsed.value? "config").getD []) = .ok config)
    (entered : entryPoint config parsed = .ok entry)
    (loaded : files.loaded (assemblerOf config) [path] [] = .ok o)
    (written : o.executable entry = .ok file) :
    product files parsed = .ok ⟨output, file, true⟩ := by
  have nonempty := FileStore.isEmpty_eq_false_of_writeError? free
  simp only [Object.executable, bind_eq_ok_iff, mapError_eq_ok_iff] at written
  obtain ⟨image, described, encoded⟩ := written
  simp only [product, given, named, Option.getD_some, nonempty, List.isEmpty_cons,
    Bool.false_eq_true, if_false, productOf, bind_eq_ok_iff, mapError_eq_ok_iff,
    writable_eq_ok_iff]
  exact ⟨config, configured, entry, entered, o, loaded, image, described, file, encoded, free, rfl⟩

theorem filesAfter_of_source {text path entry output : Text} {arguments : List Text}
    {assembly : Assembler.Assembly} {located : Object}
    (assembled : Assembler.standard.assemble text = .ok assembly)
    (succeeded : assembly.object.locate = .ok located) (read : files.read path = .ok text)
    (alone : LinksAlone files arguments path entry output)
    (labelled : ∃ l ∈ assembly.object.labels, l.name = entry) (printer : Printer) :
    ∃ file, (filesAfter run printer files arguments).read output = .ok file ∧
      file.length = Elf.headerSize + located.code.length ∧
      file.drop Elf.headerSize = located.code := by
  obtain ⟨parsed, config, parse, proceeds, named, given, free, configured, asked⟩ := alone
  obtain ⟨l, member, rfl⟩ := labelled
  have identifier : Text.isIdentifier l.name = true :=
    (Assembler.readable_of_assemble (Assembler.keepsReadable_of_builtinOnly rfl)
      assembled).labels l member
  have loaded : files.loaded (assemblerOf config) [path] [] = .ok assembly.object :=
    FileStore.loaded_of_provides (FileStore.provides_of_source
      ((Assembler.assemble_eq_ok_iff_standard config.accumulateErrors).mpr assembled) read) []
  obtain ⟨first, found⟩ : ∃ first, assembly.object.label? l.name = some first := by
    rw [← Option.ne_none_iff_exists', ne_eq, Object.label?_eq_none_iff]
    exact fun differs => differs l member rfl
  have written := Object.executable_eq_ok_iff.mpr ⟨located, first, succeeded, found, rfl⟩
  have made := product_of_loaded named given free configured
    (entryPoint_of_identifier identifier asked) loaded written
  refine ⟨Elf.fileBytes Object.imageBase (Object.addressOf first) (Object.codeSection located.code),
    ?_, Elf.length_fileBytes _ _ _, Elf.drop_fileBytes 0⟩
  rw [produces.filesAfter_of_product (fun _ => id) parse proceeds made printer]
  exact FileStore.read_write free

/-- What a call of the command may do to the files. -/
structure Contract (files : FileStore) (arguments : List Text) (result : Except Error Unit)
    (after : FileStore) : Prop where
  /-- A failure leaves the files as they are, unless it is the map that cannot be printed. -/
  failure : ∀ e, result = .error e → after = files ∨
    ∃ parsed cause, Flag.parse outline.flags arguments = .ok parsed ∧
      parsed.isOn "map" = true ∧ e = .print cause
  help : ∀ parsed, Flag.parse outline.flags arguments = .ok parsed → parsed.isOn "help" = true →
    after = files
  confined : after = files ∨ ∃ parsed output, Flag.parse outline.flags arguments = .ok parsed ∧
    parsed.value? "output" = some output ∧ files.SameBut output after

theorem contract (printer : Printer) (files : FileStore) (arguments : List Text) :
    Contract files arguments (resultOf run printer files arguments)
      (filesAfter run printer files arguments) where
  failure := by
    intro e failed
    by_cases refused : (refusals arguments).after e
    · exact .inr refused
    · exact .inl ((produces.effect printer files arguments).unchanged_of_failure failed refused)
  help := fun _ read help => (produces.effect printer files arguments).unchanged_of_help read help
  confined := by
    rcases (produces.effect printer files arguments).unchanged_or_product with same |
      ⟨parsed, w, read, made, after⟩
    · exact .inl same
    · exact .inr ⟨parsed, w.path, read, output_of_product made, after ▸ files.sameBut_write w⟩

end Link

/-! ### All commands -/

/-- The bytes are the code that an assembly of the text is located to.  Whenever a file with that
text is linked alone, from any of its labels, they are the code of the executable too. -/
structure IsLocatedCode (text : Text) (o : Object) (content : List UInt8) : Prop where
  located : ∃ located, o.locate = .ok located ∧ content = located.code
  linked : ∀ printer files arguments path entry output, files.read path = .ok text →
    Link.LinksAlone files arguments path entry output → (∃ l ∈ o.labels, l.name = entry) →
    ∃ file, (filesAfter Link.run printer files arguments).read output = .ok file ∧
      file.length = Elf.headerSize + content.length ∧ file.drop Elf.headerSize = content

namespace Assemble

/-- What a call of the command may do to the files, and what it has done if it succeeds. -/
structure Contract (files : FileStore) (arguments : List Text) (result : Except Error Unit)
    (after : FileStore) : Prop where
  failure : ∀ e, result = .error e → after = files
  help : ∀ parsed, Flag.parse outline.flags arguments = .ok parsed → parsed.isOn "help" = true →
    after = files
  confined : after = files ∨ ∃ parsed source, Flag.parse outline.flags arguments = .ok parsed ∧
    parsed.arguments = [source] ∧ files.SameBut (outputPath parsed source) after
  success : result = .ok () → ∃ parsed, Flag.parse outline.flags arguments = .ok parsed ∧
    (parsed.isOn "help" = false → ∃ source text assembly content, parsed.arguments = [source] ∧
      files.read source = .ok text ∧ Assembler.standard.assemble text = .ok assembly ∧
      after.read (outputPath parsed source) = .ok content ∧
      if parsed.isOn "raw" then IsLocatedCode text assembly.object content
      else ObjectFile.encode assembly.object = .ok content)

theorem contract (printer : Printer) (files : FileStore) (arguments : List Text) :
    Contract files arguments (resultOf run printer files arguments)
      (filesAfter run printer files arguments) where
  failure := fun e failed =>
    (produces.effect printer files arguments).unchanged_of_failure failed id
  help := fun _ read help => (produces.effect printer files arguments).unchanged_of_help read help
  confined := by
    rcases (produces.effect printer files arguments).unchanged_or_product with same |
      ⟨parsed, w, read, made, after⟩
    · exact .inl same
    · obtain ⟨source, _, _, _, _, named, -, -, -, -, rfl⟩ := exists_of_product made
      exact .inr ⟨parsed, source, read, named, after ▸ files.sameBut_write ⟨_, _, _⟩⟩
  success := by
    intro succeeded
    obtain ⟨parsed, parse, written⟩ :=
      (produces.effect printer files arguments).product_of_success succeeded
    refine ⟨parsed, parse, fun proceeds => ?_⟩
    obtain ⟨w, made, after⟩ := written proceeds
    obtain ⟨source, config, text, assembly, content, named, read, assembled, contained, free,
      rfl⟩ := exists_of_product made
    rw [assemblerOf, Assembler.assemble_eq_ok_iff_standard] at assembled
    refine ⟨source, text, assembly, content, named, read, assembled, ?_, ?_⟩
    · rw [after]
      exact FileStore.read_write free
    · unfold contentOf at contained
      split
      · next raw =>
          rw [if_pos raw, mapError_eq_ok_iff, map_eq_ok_iff] at contained
          obtain ⟨located, succeeded, rfl⟩ := contained
          exact ⟨⟨located, succeeded, rfl⟩, fun printer _ _ _ _ _ read alone labelled =>
            Link.filesAfter_of_source assembled succeeded read alone labelled printer⟩
      · next raw =>
          rw [if_neg raw, mapError_eq_ok_iff] at contained
          exact contained

end Assemble

theorem ShowCatalog.changesNothing (files : FileStore) (arguments : List Text) :
    Session.ChangesNothing (ShowCatalog.run files arguments) := by
  refine Session.Leaves.withFlags (fun _ _ => rfl) (fun _ _ _ => rfl) fun parsed _ _ => ?_
  split
  · exact .throw rfl
  · exact .print (fun _ => rfl) rfl

/-- The asm command and the link command change at most their output, and nothing if they fail or
show how they are used; it is only if the map cannot be printed that the executable has been written
before the failure.  Once the asm command has succeeded, its output holds the object of the source,
or the code that it is located to, which is the code of each executable of the source alone.  The
run command changes nothing, unless the function that it calls does, and the catalog command changes
nothing at all. -/
theorem commands_touch_only_their_output (printer : Printer) (machine : Machine) (files : FileStore)
    (arguments : List Text) :
    Assemble.Contract files arguments (resultOf Assemble.run printer files arguments)
        (filesAfter Assemble.run printer files arguments) ∧
      Link.Contract files arguments (resultOf Link.run printer files arguments)
        (filesAfter Link.run printer files arguments) ∧
      Run.Contract machine files arguments (resultOf (Run.run machine) printer files arguments)
        (filesAfter (Run.run machine) printer files arguments) ∧
      filesAfter ShowCatalog.run printer files arguments = files :=
  ⟨Assemble.contract printer files arguments, Link.contract printer files arguments,
    Run.contract printer machine files arguments,
    filesAfter_of_changesNothing printer (ShowCatalog.changesNothing files arguments)⟩

/-! One source, which is located and linked, and another one, which is run. -/

def sampleSource : Text := ascii "f: jmp f\nmain: ret"

def sampleFiles : FileStore := .ofFiles [(ascii "f.asm", ⟨sampleSource, false⟩)]

def sampleRaw : List Text := [ascii "--raw", ascii "f.asm"]

def sampleLink : List Text := [ascii "--entry=main", ascii "f.asm", ascii "-of"]

theorem linksAlone_sample :
    Link.LinksAlone sampleFiles sampleLink (ascii "f.asm") (ascii "main") (ascii "f") := by
  have evaluated : (Flag.parse Link.outline.flags sampleLink).toOption.map (fun parsed =>
      (parsed.isOn "help", parsed.arguments, ["output", "config", "entry"].map parsed.value?)) =
      some (false, [ascii "f.asm"], [some (ascii "f"), none, some (ascii "main")]) := by
    decide +kernel
  simp only [Option.map_eq_some_iff, toOption_eq_some_iff, Prod.mk.injEq, List.map_cons,
    List.cons.injEq] at evaluated
  obtain ⟨parsed, read, proceeds, named, given, config, entry, -⟩ := evaluated
  refine ⟨parsed, .default, read, proceeds, named, given, by decide, ?_, by rw [entry]; rfl⟩
  rw [config]
  rfl

def sampleAnswer : FileStore :=
  .ofFiles [(ascii "answer.asm", ⟨ascii "_start: mov eax, 42\nret", false⟩)]

/-- The machine, as far as it loads a number into its result register. -/
def sampleMachine : Machine where
  runsCode := true
  address _ := 0
  call f files :=
    match f.block.function f.offset with
    | .ok (184 :: code) => ⟨.ofNat (ofLittleEndian (code.take 4)), files⟩
    | _ => ⟨0, files⟩

theorem keepsFiles_sampleMachine : sampleMachine.KeepsFiles := by
  intro f files
  unfold sampleMachine
  dsimp only
  split <;> rfl

/-- The jump and the return are in both files, and the number is printed. -/
theorem commands_touch_only_their_output_sample :
    resultOf Assemble.run .accepting sampleFiles sampleRaw = .ok () ∧
      (filesAfter Assemble.run .accepting sampleFiles sampleRaw).read (ascii "f.bin") =
        .ok [233, 251, 255, 255, 255, 195] ∧
      (∃ file, (filesAfter Link.run .accepting sampleFiles sampleLink).read (ascii "f") = .ok file ∧
        file.drop Elf.headerSize = [233, 251, 255, 255, 255, 195]) ∧
      ((Run.run sampleMachine sampleAnswer [ascii "answer.asm"]).runOn .accepting .empty).2.output =
        ascii "42\n" ∧
      filesAfter (Run.run sampleMachine) .accepting sampleAnswer [ascii "answer.asm"] =
        sampleAnswer := by
  have ran : resultOf Assemble.run .accepting sampleFiles sampleRaw = .ok () :=
    toOption_eq_some_iff.mp (by decide +kernel)
  have arguments : (Flag.parse Assemble.outline.flags sampleRaw).toOption.map (fun parsed =>
      (parsed.isOn "help", parsed.isOn "raw", parsed.arguments,
        Assemble.outputPath parsed (ascii "f.asm"))) =
      some (false, true, [ascii "f.asm"], ascii "f.bin") := by decide +kernel
  have assembles : (Assembler.standard.assemble sampleSource).toOption.map (fun assembly =>
      (assembly.object.labels.map (·.name), assembly.object.locate.toOption.map (·.code))) =
      some ([ascii "f", ascii "main"], some [233, 251, 255, 255, 255, 195]) := by decide +kernel
  obtain ⟨parsed, read, succeeded⟩ :=
    (commands_touch_only_their_output .accepting .idle sampleFiles sampleRaw).1.success ran
  simp only [read, Except.toOption, Option.map_some, Option.some.injEq, Prod.mk.injEq] at arguments
  obtain ⟨proceeds, raw, named, path⟩ := arguments
  obtain ⟨source, text, assembly, content, same, readSource, assembled, written, holds⟩ :=
    succeeded proceeds
  cases named.symm.trans same
  cases readSource
  rw [if_pos raw] at holds
  obtain ⟨located, succeeds, rfl⟩ := holds.located
  simp only [assembled, succeeds, Except.toOption, Option.map_some, Option.some.injEq,
    Prod.mk.injEq] at assembles
  obtain ⟨labels, code⟩ := assembles
  have labelled : ∃ l ∈ assembly.object.labels, l.name = ascii "main" := by
    rw [← List.mem_map, labels]
    exact .tail _ (.head _)
  obtain ⟨file, linked, -, same⟩ := holds.linked .accepting sampleFiles sampleLink (ascii "f.asm")
    (ascii "main") (ascii "f") rfl linksAlone_sample labelled
  rw [path, code] at written
  rw [code] at same
  have printed : ((Run.run sampleMachine sampleAnswer [ascii "answer.asm"]).runOn .accepting
      .empty).2.output = ascii "42\n" := by decide +kernel
  obtain ⟨-, -, run, -⟩ := commands_touch_only_their_output .accepting sampleMachine sampleAnswer
    [ascii "answer.asm"]
  exact ⟨ran, written, ⟨file, linked, same⟩, printed, run.unchanged keepsFiles_sampleMachine⟩

end Asm64.Command
