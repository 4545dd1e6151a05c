import Asm64.Load
import Asm64.Proofs.Assembler.Readability
import Asm64.Proofs.Image.Executable
import Asm64.Proofs.Magic
import Asm64.Proofs.ObjectFile.Canonical

/-!
# Programs from sources and from object files

A source and the object file of what it assembles to are loaded as the same object, each from what
its first bytes say it is.  A program that is loaded from files of both kinds is therefore the
result of linking what the sources assemble to, whichever kind each file is of.
-/

namespace Asm64

def LoadError.unnamed : LoadError → LoadError
  | noFiles => noFiles
  | file _ error => file [] error
  | decode _ error => decode [] error
  | assemble _ error => assemble [] error
  | link _ error => link [] error

namespace Log

variable {Failure Alpha Beta : Type}

/-- The result of logged work, when there are entries in the log already. -/
def resultAfter (log : List Entry) (work : Logged Failure Alpha) : Except Failure Alpha :=
  (work.run.run log).1

def logAfter (log : List Entry) (work : Logged Failure Alpha) : List Entry := (work.run.run log).2

theorem resultAfter_bind (log : List Entry) (work : Logged Failure Alpha)
    (next : Alpha → Logged Failure Beta) :
    resultAfter log (work >>= next) =
      resultAfter log work >>= fun value => resultAfter (logAfter log work) (next value) := by
  simp only [resultAfter, logAfter, ExceptT.run_bind, StateT.run_bind]
  cases work.run.run log with
  | mk result later => cases result <;> rfl

@[simp]
theorem resultAfter_pure (log : List Entry) (value : Alpha) :
    resultAfter log (pure value : Logged Failure Alpha) = .ok value := rfl

@[simp]
theorem resultAfter_note (log : List Entry) (e : Entry) :
    resultAfter log (note e : Logged Failure Unit) = .ok () := rfl

@[simp]
theorem resultAfter_require {Cause : Type} (log : List Entry) (cause : Cause → Failure)
    (result : Except Cause Alpha) :
    resultAfter log (require cause result) = result.mapError cause := rfl

end Log

/-- Links objects one after another to the first.  The errors are those of loading, with no file
named. -/
def Object.linkAll : List Object → Except LoadError Object
  | [] => .error .noFiles
  | first :: rest => (rest.foldlM linkNext first).mapError (.link [])
where
  linkNext (linked o : Object) : Except LinkError Object := (linked.link o).result

namespace FileStore

/-- Whatever has been logged before, the object is what is loaded from the file. -/
def Provides (files : FileStore) (a : Assembler) (path : Text) (o : Object) : Prop :=
  ∀ log, Log.resultAfter log (files.loadObject a path) = .ok o

/-- The file holds a source, which assembles to an object that can be written, or it holds the
object file that is then written. -/
def Holds (files : FileStore) (a : Assembler) (path source : Text) : Prop :=
  ∃ assembly file, a.assemble source = .ok assembly ∧
    ObjectFile.encode assembly.object = .ok file ∧
    (files.read path = .ok source ∨ files.read path = .ok file)

/-- The program that is loaded from files, when there are entries in the log already. -/
def loaded (files : FileStore) (a : Assembler) (paths : List Text) (log : List Log.Entry) :
    Except LoadError Object :=
  Log.resultAfter log (files.loadProgram a paths)

variable {files : FileStore} {a : Assembler} {path : Text}

/-! ### One file -/

theorem provides_of_source {source : Text} {assembly : Assembler.Assembly}
    (assembled : a.assemble source = .ok assembly) (read : files.read path = .ok source) :
    files.Provides a path assembly.object := by
  intro log
  have isSource := Assembler.isObject_eq_false_of_assemble assembled
  simp only [loadObject, read, isSource, assembled]
  rfl

theorem provides_of_file {o : Object} {file : List UInt8} (readable : o.Readable)
    (encoded : ObjectFile.encode o = .ok file) (read : files.read path = .ok file) :
    files.Provides a path o := by
  intro log
  have isObject := ObjectFile.isObject_of_written (ObjectFile.written_of_encode encoded)
  simp only [loadObject, read, isObject, readable.decode_of_encode encoded]
  rfl

theorem exists_object_of_holds (keeps : a.KeepsReadable) {source : Text}
    (holds : files.Holds a path source) :
    ∃ o, (a.assemble source).map (·.object) = .ok o ∧ files.Provides a path o := by
  obtain ⟨assembly, file, assembled, encoded, read | read⟩ := holds
  all_goals refine ⟨assembly.object, by rw [assembled]; rfl, ?_⟩
  · exact provides_of_source assembled read
  · exact provides_of_file (Assembler.readable_of_assemble keeps assembled) encoded read

/-! ### All files -/

theorem exists_objects_of_holds (keeps : a.KeepsReadable) {paths sources : List Text}
    (holds : List.Forall₂ (files.Holds a) paths sources) :
    ∃ objects, sources.mapM (fun source => (a.assemble source).map (·.object)) = .ok objects ∧
      List.Forall₂ (files.Provides a) paths objects := by
  induction holds with
  | nil => exact ⟨[], rfl, .nil⟩
  | cons here _ inductionHypothesis =>
      obtain ⟨o, assembled, provides⟩ := exists_object_of_holds keeps here
      obtain ⟨objects, others, provided⟩ := inductionHypothesis
      refine ⟨o :: objects, ?_, .cons provides provided⟩
      rw [List.mapM_cons, assembled, others]
      rfl

theorem linkObject_of_provides {o : Object} (provides : files.Provides a path o)
    (linked : Object) (log : List Log.Entry) :
    Log.resultAfter log (files.linkObject a linked path) =
      (linked.link o).result.mapError (.link path) := by
  rw [linkObject, Log.resultAfter_bind, provides log]
  dsimp only [bind, Except.bind]
  cases (linked.link o).result <;> rfl

theorem foldlM_linkObject {paths : List Text} {objects : List Object}
    (provides : List.Forall₂ (files.Provides a) paths objects) (linked : Object)
    (log : List Log.Entry) :
    (Log.resultAfter log (paths.foldlM (files.linkObject a) linked)).mapError LoadError.unnamed =
      (objects.foldlM Object.linkAll.linkNext linked).mapError (.link []) := by
  induction provides generalizing linked log with
  | nil => rfl
  | @cons path o _ _ here _ inductionHypothesis =>
      rw [List.foldlM_cons, List.foldlM_cons, Log.resultAfter_bind, linkObject_of_provides here,
        Object.linkAll.linkNext]
      cases (linked.link o).result with
      | error e => rfl
      | ok next => exact inductionHypothesis next _

theorem loaded_of_provides {o : Object} (provides : files.Provides a path o)
    (log : List Log.Entry) : files.loaded a [path] log = .ok o := by
  rw [loaded, loadProgram, Log.resultAfter_bind, provides log]
  rfl

theorem loaded_eq_linkAll {paths : List Text} {objects : List Object}
    (provides : List.Forall₂ (files.Provides a) paths objects) (log : List Log.Entry) :
    (files.loaded a paths log).mapError LoadError.unnamed = Object.linkAll objects := by
  cases provides with
  | nil => rfl
  | cons here others =>
      rw [loaded, loadProgram, Log.resultAfter_bind, here log]
      exact foldlM_linkObject others _ _

theorem exists_linkAll_of_holds (keeps : a.KeepsReadable) {paths sources : List Text}
    (holds : List.Forall₂ (files.Holds a) paths sources) :
    ∃ objects, sources.mapM (fun source => (a.assemble source).map (·.object)) = .ok objects ∧
      ∀ log, (files.loaded a paths log).mapError LoadError.unnamed = Object.linkAll objects := by
  obtain ⟨objects, assembled, provides⟩ := exists_objects_of_holds keeps holds
  exact ⟨objects, assembled, loaded_eq_linkAll provides⟩

theorem loaded_eq_of_holds (keeps : a.KeepsReadable) {others : FileStore}
    {paths otherPaths sources : List Text} (holds : List.Forall₂ (files.Holds a) paths sources)
    (othersHold : List.Forall₂ (others.Holds a) otherPaths sources)
    (log otherLog : List Log.Entry) :
    (files.loaded a paths log).mapError LoadError.unnamed =
      (others.loaded a otherPaths otherLog).mapError LoadError.unnamed := by
  obtain ⟨objects, assembled, linked⟩ := exists_linkAll_of_holds keeps holds
  obtain ⟨_, assembledAgain, othersLinked⟩ := exists_linkAll_of_holds keeps othersHold
  cases assembled.symm.trans assembledAgain
  exact (linked log).trans (othersLinked otherLog).symm

theorem executable_eq_of_loaded_eq {loaded otherLoaded : Except LoadError Object}
    (same : loaded.mapError LoadError.unnamed = otherLoaded.mapError LoadError.unnamed)
    (entry : Text) :
    loaded.toOption.map (·.executable entry) = otherLoaded.toOption.map (·.executable entry) := by
  have sameObject := congrArg Except.toOption same
  rw [toOption_mapError, toOption_mapError] at sameObject
  rw [sameObject]

/-- Which files of a program hold sources, and which hold the object files of what the sources
assemble to, makes no difference: what is loaded is what the assembled objects are linked to, or
the error that linking finds, up to the name of the file.  So all executables of the program are
the same.  No source that assembles is taken for an object file. -/
theorem loading_through_object_files (keeps : a.KeepsReadable) {others : FileStore}
    {paths otherPaths sources : List Text} (holds : List.Forall₂ (files.Holds a) paths sources)
    (othersHold : List.Forall₂ (others.Holds a) otherPaths sources)
    (log otherLog : List Log.Entry) :
    (files.loaded a paths log).mapError LoadError.unnamed =
        (others.loaded a otherPaths otherLog).mapError LoadError.unnamed ∧
      (∃ objects, sources.mapM (fun source => (a.assemble source).map (·.object)) = .ok objects ∧
        (files.loaded a paths log).mapError LoadError.unnamed = Object.linkAll objects) ∧
      (∀ entry, (files.loaded a paths log).toOption.map (·.executable entry) =
        (others.loaded a otherPaths otherLog).toOption.map (·.executable entry)) ∧
      ∀ source assembly, a.assemble source = .ok assembly →
        ObjectFile.isObject source = false := by
  obtain ⟨objects, assembled, linked⟩ := exists_linkAll_of_holds keeps holds
  have same := loaded_eq_of_holds keeps holds othersHold log otherLog
  exact ⟨same, ⟨objects, assembled, linked log⟩, executable_eq_of_loaded_eq same,
    fun source assembly => Assembler.isObject_eq_false_of_assemble⟩

/-- Without directives of the caller, nothing has to be known of the assembler. -/
theorem loads_alike_of_builtinOnly (builtinOnly : a.customDirectives = []) {others : FileStore}
    {paths otherPaths sources : List Text} (holds : List.Forall₂ (files.Holds a) paths sources)
    (othersHold : List.Forall₂ (others.Holds a) otherPaths sources)
    (log otherLog : List Log.Entry) :
    (files.loaded a paths log).mapError LoadError.unnamed =
        (others.loaded a otherPaths otherLog).mapError LoadError.unnamed ∧
      ∀ entry, (files.loaded a paths log).toOption.map (·.executable entry) =
        (others.loaded a otherPaths otherLog).toOption.map (·.executable entry) := by
  have same := loaded_eq_of_holds (Assembler.keepsReadable_of_builtinOnly builtinOnly) holds
    othersHold log otherLog
  exact ⟨same, executable_eq_of_loaded_eq same⟩

/-! Two sources that refer to the labels of each other.  One of them uses a directive of the
caller. -/

def sampleAssembler : Assembler :=
  ⟨[], [(ascii "ud2", fun o _ => ({ o with code := o.code ++ [0x0F, 0x0B] }, none))], false⟩

def sampleCallerSource : Text := ascii ".global f\nf: .ud2\nadd eax, g[rip]"

def sampleCalleeSource : Text := ascii ".global g\ng: add eax, f[rip]"

def sampleCallerObject : Object :=
  ⟨[15, 11, 3, 5, 0, 0, 0, 0], [⟨ascii "f", 0, true⟩], [⟨ascii "g", 4, 4, 8, true⟩]⟩

def sampleCalleeObject : Object :=
  ⟨[3, 5, 0, 0, 0, 0], [⟨ascii "g", 0, true⟩], [⟨ascii "f", 2, 4, 6, true⟩]⟩

def sampleSources : FileStore :=
  .ofFiles [(ascii "f.asm", ⟨sampleCallerSource, false⟩),
    (ascii "g.asm", ⟨sampleCalleeSource, false⟩)]

def sampleMixture : FileStore :=
  .ofFiles [(ascii "out/f.o", ⟨ObjectFile.fileOf sampleCallerObject, false⟩),
    (ascii "g.asm", ⟨sampleCalleeSource, false⟩)]

theorem holds_of_valid {source : Text} {o : Object}
    (assembled : (a.assemble source).toOption.map (·.object) = some o)
    (valid : ObjectFile.Valid o)
    (read : files.read path = .ok source ∨ files.read path = .ok (ObjectFile.fileOf o)) :
    files.Holds a path source := by
  simp only [Option.map_eq_some_iff, toOption_eq_some_iff] at assembled
  obtain ⟨assembly, assembled, rfl⟩ := assembled
  exact ⟨assembly, _, assembled, ObjectFile.encode_of_valid valid, read⟩

/-- The program is loaded from the mixture as it is from the sources. -/
theorem loading_through_object_files_sample :
    sampleAssembler.KeepsReadable ∧
    List.Forall₂ (sampleSources.Holds sampleAssembler) [ascii "f.asm", ascii "g.asm"]
      [sampleCallerSource, sampleCalleeSource] ∧
    List.Forall₂ (sampleMixture.Holds sampleAssembler) [ascii "out/f.o", ascii "g.asm"]
      [sampleCallerSource, sampleCalleeSource] ∧
    ∃ o, sampleSources.loaded sampleAssembler [ascii "f.asm", ascii "g.asm"] [] = .ok o ∧
      sampleMixture.loaded sampleAssembler [ascii "out/f.o", ascii "g.asm"] [] = .ok o ∧
      o.code = [15, 11, 3, 5, 8, 0, 0, 0, 0, 0, 0, 0, 0, 0, 0, 0, 3, 5, 234, 255, 255, 255] := by
  have keeps : sampleAssembler.KeepsReadable :=
    List.forall_mem_singleton.mpr fun o _ readable _ => readable.append_code _
  have caller : (sampleAssembler.assemble sampleCallerSource).toOption.map (·.object) =
      some sampleCallerObject := by decide +kernel
  have callee : (sampleAssembler.assemble sampleCalleeSource).toOption.map (·.object) =
      some sampleCalleeObject := by decide +kernel
  have callerValid : ObjectFile.Valid sampleCallerObject := by decide
  have calleeValid : ObjectFile.Valid sampleCalleeObject := by decide
  have holds : List.Forall₂ (sampleSources.Holds sampleAssembler)
      [ascii "f.asm", ascii "g.asm"] [sampleCallerSource, sampleCalleeSource] :=
    .cons (holds_of_valid caller callerValid (.inl rfl))
      (.cons (holds_of_valid callee calleeValid (.inl rfl)) .nil)
  have mixtureHolds : List.Forall₂ (sampleMixture.Holds sampleAssembler)
      [ascii "out/f.o", ascii "g.asm"] [sampleCallerSource, sampleCalleeSource] :=
    .cons (holds_of_valid caller callerValid (.inr rfl))
      (.cons (holds_of_valid callee calleeValid (.inl rfl)) .nil)
  have evaluated : (sampleSources.loaded sampleAssembler
      [ascii "f.asm", ascii "g.asm"] []).toOption.map (·.code) =
      some [15, 11, 3, 5, 8, 0, 0, 0, 0, 0, 0, 0, 0, 0, 0, 0, 3, 5, 234, 255, 255, 255] := by
    decide +kernel
  simp only [Option.map_eq_some_iff, toOption_eq_some_iff] at evaluated
  obtain ⟨o, loaded, code⟩ := evaluated
  obtain ⟨same, -, -, -⟩ := loading_through_object_files keeps holds mixtureHolds [] []
  rw [loaded] at same
  exact ⟨keeps, holds, mixtureHolds, o, loaded, mapError_eq_ok_iff.mp same.symm, code⟩

end FileStore

end Asm64
