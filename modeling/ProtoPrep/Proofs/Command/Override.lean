import ProtoPrep.Proofs.Command.Course
import ProtoPrep.Proofs.Config.Rendering

/-!
# Flags and configuration files

A service or a level that is given on the command line does what it does in the
configuration file. The two take different ways: the value in the file is checked when
the file is loaded, and the flag is set in a configuration that was checked before. The
file must not be one that the run reads as its source or writes, since a run on another
configuration file would then be a run on another source.
-/

namespace ProtoPrep

open Files

section Override

variable {σ : Type} [FileSystem σ] {files : σ} {file : File σ} {path : Text} {config : Config}

/-- A command neither reads a file as its source nor writes it. -/
structure Command.Spares (command : Command) (files : σ) (file : File σ) : Prop where
  unread : ∀ path ∈ command.source?, readable files path ≠ .ok file
  unwritten : ∀ path ∈ command.target?, writable files path ≠ .ok file

/-- Two runs that do the same script, one of them after another text was given to a file that the
script does not open, end in the same way and make the same changes. If they announce the same
configuration, they show the same. -/
theorem Invocation.run_of_same_script {invocation invocation' : Invocation}
    {job job' : Config → Script RunFailure Unit} {config' : Config} {bytes : ByteArray}
    (given : invocation.command.job = .ok job) (given' : invocation'.command.job = .ok job')
    (loaded : Job.loaded files invocation.config = .ok config)
    (loaded' : Job.loaded (store files file bytes) invocation'.config = .ok config')
    (script : job (invocation.settled config) = job' (invocation'.settled config'))
    (spares : invocation.command.Spares files file) (there : (content? files file).isSome) :
    (invocation'.run (store files file bytes)).failure = (invocation.run files).failure ∧
      (invocation'.settled config' = invocation.settled config →
        (invocation'.run (store files file bytes)).shown = (invocation.run files).shown) ∧
      SameChanges file files (invocation.run files).files (store files file bytes)
        (invocation'.run (store files file bytes)).files := by
  obtain ⟨source, target, isSource, isTarget, orderly⟩ := (Command.does_of_job given).orderly
  have unread : ∀ path, source = path → readable files path ≠ .ok file := by
    rintro path rfl
    exact spares.unread source isSource
  have unwritten : ∀ path, target = path → writable files path ≠ .ok file := by
    rintro path rfl
    exact spares.unwritten target isTarget
  obtain ⟨result, records, changes⟩ :=
    (orderly (invocation.settled config)).store there unread unwritten bytes
  rw [run_of_loaded given loaded, run_of_loaded given' loaded', ← script]
  refine ⟨congrArg failureOf result, fun same => ?_, changes⟩
  simp only [same, records]

namespace Command

variable {name : Text}

theorem job_fixIncludes (patched service : Option Text) :
    (fixIncludes patched service).job =
      (givenPath patched "input file".toList "--file".toList).map
        fun target => fixing target service := by
  rw [job]
  cases givenPath patched "input file".toList "--file".toList with
  | error failure => rfl
  | ok target => rfl

/-- A service that passes the check is as good as one that is configured. -/
theorem fixing_of_accepted (target : Text)
    (accepted : { config with serviceName := name }.check = .ok ()) :
    fixing target (some name) config = fixing target none { config with serviceName := name } := by
  simp only [fixing, Config.forService, accepted]
  rfl

/-- A service that is refused on the command line is refused before any file is opened. -/
theorem effect_fixing_of_refused (target : Text) (files : σ) {reason : Config.Invalid}
    (refused : { config with serviceName := name }.check = .error reason) :
    (fixing target (some name) config).effect files =
      (.error ⟨some .serviceFlag, .config (.invalid reason)⟩, files) := by
  simp only [fixing, Config.forService, refused]
  rfl

end Command

namespace Invocation

/-- The service flag does what the name in the configuration file does, and the same names are
refused, though at another stage. -/
theorem run_service_flag (kept : config.IsKept files path file) (valid : config.check = .ok ())
    (patched : Option Text) (name : Text) (level : Option Level)
    (spares : (Command.fixIncludes patched (some name)).Spares files file) {u : Text}
    (spells : { config with serviceName := name }.Spells u) :
    let flagged : Invocation := ⟨.fixIncludes patched (some name), some path, level⟩
    let plain : Invocation := ⟨.fixIncludes patched none, some path, level⟩
    (plain.run (store files file u.encode)).status = (flagged.run files).status ∧
      SameChanges file files (flagged.run files).files (store files file u.encode)
        (plain.run (store files file u.encode)).files := by
  intro flagged plain
  have job : flagged.command.job = _ := Command.job_fixIncludes patched (some name)
  have job' : plain.command.job = _ := Command.job_fixIncludes patched none
  have rewritten := kept.store spells
  cases given : givenPath patched "input file".toList "--file".toList with
  | error failure =>
    rw [given] at job job'
    rw [run_of_missing job, run_of_missing job']
    exact ⟨rfl, .refl u.encode⟩
  | ok target =>
    rw [given] at job job'
    have loaded : Job.loaded files flagged.config = _ := kept.loaded_of_valid valid
    cases checked : ({ config with serviceName := name }).check with
    | error reason =>
      have loaded' : Job.loaded (store files file u.encode) plain.config = _ :=
        rewritten.loaded_of_refused checked
      have refused :
          (Command.fixing target (some name) (flagged.settled config)).effect files = _ :=
        Command.effect_fixing_of_refused target files checked
      rw [run_of_loaded job loaded, run_of_not_loaded job' loaded']
      simp only [refused]
      exact ⟨rfl, .refl u.encode⟩
    | ok passed =>
      have loaded' : Job.loaded (store files file u.encode) plain.config = _ :=
        rewritten.loaded_of_valid checked
      have accepted : Command.fixing target (some name) (flagged.settled config) = _ :=
        Command.fixing_of_accepted target checked
      obtain ⟨failure, -, changes⟩ :=
        run_of_same_script job job' loaded loaded' accepted spares kept.exists_content
      exact ⟨by rw [Outcome.status, Outcome.status, failure], changes⟩

/-- The level flag does what the level in the configuration file does, and the log is the same. -/
theorem run_level_flag (kept : config.IsKept files path file) (valid : config.check = .ok ())
    (command : Command) (level : Level) (spares : command.Spares files file) {u : Text}
    (spells : { config with level := level }.Spells u) :
    let flagged : Invocation := ⟨command, some path, some level⟩
    let plain : Invocation := ⟨command, some path, none⟩
    (plain.run (store files file u.encode)).status = (flagged.run files).status ∧
      (∀ clock, (plain.run (store files file u.encode)).stderr clock =
        (flagged.run files).stderr clock) ∧
      SameChanges file files (flagged.run files).files (store files file u.encode)
        (plain.run (store files file u.encode)).files := by
  intro flagged plain
  rcases command.job_cases with ⟨need, -, missing⟩ | ⟨job, -, given, -⟩
  · have missing' : flagged.command.job = _ := missing
    have missing'' : plain.command.job = _ := missing
    rw [run_of_missing missing', run_of_missing missing'']
    exact ⟨rfl, fun _ => rfl, .refl u.encode⟩
  · have given' : flagged.command.job = _ := given
    have given'' : plain.command.job = _ := given
    have loaded : Job.loaded files flagged.config = _ := kept.loaded_of_valid valid
    have loaded' : Job.loaded (store files file u.encode) plain.config = _ :=
      (kept.store spells).loaded_of_valid valid
    obtain ⟨failure, shown, changes⟩ :=
      run_of_same_script given' given'' loaded loaded' rfl spares kept.exists_content
    have same := shown rfl
    refine ⟨?_, fun clock => ?_, changes⟩
    · rw [Outcome.status, Outcome.status, failure]
    · rw [Outcome.stderr, Outcome.stderr, failure, same]

/-- With a valid configuration file that it spares, a run with a service or with a level on the
command line is the run without it on any file that spells the configuration with that service or
that level, and there is such a file (`Config.spells_render`). -/
theorem run_override (kept : config.IsKept files path file) (valid : config.IsValid) :
    (∀ patched name level, (Command.fixIncludes patched (some name)).Spares files file →
      ∀ u, { config with serviceName := name }.Spells u →
        let flagged : Invocation := ⟨.fixIncludes patched (some name), some path, level⟩
        let plain : Invocation := ⟨.fixIncludes patched none, some path, level⟩
        (plain.run (store files file u.encode)).status = (flagged.run files).status ∧
          SameChanges file files (flagged.run files).files (store files file u.encode)
            (plain.run (store files file u.encode)).files) ∧
    ∀ command level, command.Spares files file → ∀ u, { config with level := level }.Spells u →
      let flagged : Invocation := ⟨command, some path, some level⟩
      let plain : Invocation := ⟨command, some path, none⟩
      (plain.run (store files file u.encode)).status = (flagged.run files).status ∧
        (∀ clock, (plain.run (store files file u.encode)).stderr clock =
          (flagged.run files).stderr clock) ∧
        SameChanges file files (flagged.run files).files (store files file u.encode)
          (plain.run (store files file u.encode)).files := by
  have checked := Config.check_eq_ok_iff.mpr valid
  constructor
  · intro patched name level spares u spells
    exact run_service_flag kept checked patched name level spares spells
  · intro command level spares u spells
    exact run_level_flag kept checked command level spares spells

end Invocation

end Override

/-- A source that includes a wrapper, and the default configuration in a file: the service and the
level are given by flags or stand in the file. -/
theorem Invocation.run_override_of_include :
    let files : Tree := ⟨[(["c".toList], .file Config.default.render.encode),
      (["a".toList], .file (WrapperInclude.directive "echo".toList "pb.hpp").encode)]⟩
    let file : File Tree := ⟨["c".toList], nofun⟩
    let echo : Config := { Config.default with serviceName := "echo".toList }
    let traced : Config := { Config.default with level := .trace }
    let named : Tree := store files file echo.render.encode
    let louder : Tree := store files file traced.render.encode
    let run (service : Option Text) (level : Option Level) (files : Tree) : Outcome Tree :=
      Invocation.run ⟨.fixIncludes (some "a".toList) service, some "c".toList, level⟩ files
    Config.default.IsKept files "c".toList file ∧ Config.default.IsValid ∧
      (∀ service, (Command.fixIncludes (some "a".toList) service).Spares files file) ∧
      echo.Spells echo.render ∧ traced.Spells traced.render ∧
      ((run none none named).status = (run (some "echo".toList) none files).status ∧
        SameChanges file files (run (some "echo".toList) none files).files
          named (run none none named).files) ∧
      (run none none louder).status = (run none (some .trace) files).status ∧
        (∀ clock, (run none none louder).stderr clock =
          (run none (some .trace) files).stderr clock) ∧
        SameChanges file files (run none (some .trace) files).files
          louder (run none none louder).files := by
  intro files file echo traced named louder run
  have kept : Config.default.IsKept files "c".toList file :=
    ⟨rfl, Config.default.render, rfl, Config.default.spells_render⟩
  have valid : Config.default.IsValid := Config.check_eq_ok_iff.mp (by decide)
  have apart : ∀ make, files.opened make "a".toList ≠ .ok file := by
    intro make same
    have names := congrArg (fun opened => opened.toOption.map Subtype.val) same
    cases make with
    | true => exact absurd names (by decide)
    | false => exact absurd names (by decide)
  have spares : ∀ service, (Command.fixIncludes (some "a".toList) service).Spares files file :=
    fun _ => ⟨fun path given => Option.some.inj given ▸ apart false,
      fun path given => Option.some.inj given ▸ apart true⟩
  obtain ⟨byService, byLevel⟩ := Invocation.run_override kept valid
  exact ⟨kept, valid, spares, echo.spells_render, traced.spells_render,
    byService _ _ none (spares _) _ echo.spells_render,
    byLevel _ .trace (spares _) _ traced.spells_render⟩

end ProtoPrep
