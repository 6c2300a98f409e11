import ProtoPrep.Command
import ProtoPrep.Proofs.Config.Loading
import ProtoPrep.Proofs.Script.Orderly

/-!
# The course of a run

A run goes through three stages, and each is told by the files alone. It fails at once
if a required path is not given, then if its configuration does not load, and else it
goes on as the job of its command does, which is orderly.
-/

namespace ProtoPrep

open Files

variable {σ : Type}

structure Requirement where
  value : Option Text
  what : Text
  flag : Text

def Requirement.isMissing (need : Requirement) : Bool :=
  need.value.getD [] = []

namespace Command

/-- The paths that a command cannot do without, in the order in which they are checked. -/
def required : Command → List Requirement
  | convert input output =>
    [⟨input, "input file".toList, "--input".toList⟩,
      ⟨output, "output file".toList, "--output".toList⟩]
  | fixIncludes file _ => [⟨file, "input file".toList, "--file".toList⟩]
  | fixPragmas file => [⟨file, "input file".toList, "--file".toList⟩]

def source? : Command → Option Text
  | convert input _ => input
  | fixIncludes file _ => file
  | fixPragmas file => file

def target? : Command → Option Text
  | convert _ output => output
  | fixIncludes file _ => file
  | fixPragmas file => file

/-- A command with its required paths, and what it does. -/
inductive Does : Command → (Config → Script RunFailure Unit) → Prop where
  | convert {input output : Text} : input ≠ [] → output ≠ [] →
      Does (.convert (some input) (some output)) fun _ => converting input output
  | fixIncludes {file : Text} (service : Option Text) : file ≠ [] →
      Does (.fixIncludes (some file) service) (fixing file service)
  | fixPragmas {file : Text} : file ≠ [] → Does (.fixPragmas (some file)) (injecting file)

end Command

/-- The first required path that is missing decides, and else the command has something to do. -/
theorem Command.job_cases (command : Command) :
    (∃ need, command.required.find? Requirement.isMissing = some need ∧
      command.job = .error (.missingArgument need.what need.flag)) ∨
    ∃ job, command.required.find? Requirement.isMissing = none ∧ command.job = .ok job ∧
      command.Does job := by
  cases command with
  | convert input output =>
    rcases input with _ | _ | ⟨c, input⟩
    · exact Or.inl ⟨_, rfl, rfl⟩
    · exact Or.inl ⟨_, rfl, rfl⟩
    rcases output with _ | _ | ⟨d, output⟩
    · exact Or.inl ⟨_, rfl, rfl⟩
    · exact Or.inl ⟨_, rfl, rfl⟩
    · exact Or.inr ⟨_, rfl, rfl, .convert nofun nofun⟩
  | fixIncludes file service =>
    rcases file with _ | _ | ⟨c, file⟩
    · exact Or.inl ⟨_, rfl, rfl⟩
    · exact Or.inl ⟨_, rfl, rfl⟩
    · exact Or.inr ⟨_, rfl, rfl, .fixIncludes service nofun⟩
  | fixPragmas file =>
    rcases file with _ | _ | ⟨c, file⟩
    · exact Or.inl ⟨_, rfl, rfl⟩
    · exact Or.inl ⟨_, rfl, rfl⟩
    · exact Or.inr ⟨_, rfl, rfl, .fixPragmas nofun⟩

theorem Command.does_of_job {command : Command} {job : Config → Script RunFailure Unit}
    (given : command.job = .ok job) : command.Does job := by
  rcases command.job_cases with ⟨need, _, missing⟩ | ⟨_, _, found, does⟩
  · rw [missing] at given
    cases given
  · rw [found] at given
    cases given
    exact does

section Orderly

open Script

variable {reads writes : Text → Prop} {path : Text}

theorem Job.orderly_read (allowed : reads path) : (Job.read path).Orderly reads writes :=
  .read allowed fun answer => orderly_ofExcept (answer.mapError (Failure.file path))

theorem Job.orderly_write (allowed : writes path) (content : Text) :
    (Job.write path content).Orderly reads writes :=
  .write allowed (fun cause => .fail (Failure.file path cause)) (.done ())

theorem Job.onlyLogs_note (level : Level) (message : String) :
    (Job.note level message).OnlyLogs :=
  .log ⟨level, message⟩ (.done ())

theorem Job.orderly_edit {α : Type} (reading : reads path) (writing : writes path)
    (change : Text → Text × α) : (Job.edit path change).Orderly reads writes := by
  refine (orderly_read reading).bind fun t => ?_
  exact (orderly_write writing (change t).1).bind_onlyLogs fun _ => .done (change t).2

theorem Job.orderly_convert (input output : Text) :
    (Job.convert input output).Orderly (Eq input) (Eq output) := by
  refine (orderly_read rfl).bind fun t => ?_
  refine (onlyLogs_logAll (reduce t).records).orderly.bind fun _ => ?_
  refine (orderly_write rfl (reduce t).text).bind_onlyLogs fun _ => ?_
  exact (onlyLogs_note _ _).bind fun _ => .done (reduce t).report

theorem Job.onlyLogs_noteFixes (file service : Text) (count : Nat) :
    (Job.noteFixes file service count).OnlyLogs := by
  rw [noteFixes]
  split
  · exact (onlyLogs_note _ _).bind fun _ => onlyLogs_note _ _
  · exact onlyLogs_note _ _

theorem Job.orderly_fixIncludes (file service : Text) :
    (Job.fixIncludes file service).Orderly (Eq file) (Eq file) :=
  (orderly_edit rfl rfl _).bind_onlyLogs fun count =>
    (onlyLogs_noteFixes file service count).bind fun _ => .done count

theorem Job.orderly_addPragmas (file : Text) (warnings : List Warning) :
    (Job.addPragmas file warnings).Orderly (Eq file) (Eq file) :=
  (orderly_edit rfl rfl _).bind_onlyLogs fun _ => onlyLogs_note _ _

variable {command : Command} {job : Config → Script RunFailure Unit}

/-- What a command does reads its source, writes its target and is orderly. -/
theorem Command.Does.orderly (h : command.Does job) :
    ∃ source target, command.source? = some source ∧ command.target? = some target ∧
      ∀ config, (job config).Orderly (Eq source) (Eq target) := by
  cases h with
  | @convert input output _ _ =>
    refine ⟨input, output, rfl, rfl, fun _ => ?_⟩
    exact ((Job.orderly_convert input output).mapFailure _).bind_onlyLogs fun report =>
      onlyLogs_logAll report.summary
  | @fixIncludes file service _ =>
    refine ⟨file, file, rfl, rfl, fun loaded => ?_⟩
    refine ((orderly_ofExcept _).mapFailure _).bind fun config => ?_
    exact ((Job.orderly_fixIncludes file config.serviceName).mapFailure _).bind_onlyLogs
      fun _ => .done ()
  | @fixPragmas file _ =>
    refine ⟨file, file, rfl, rfl, fun config => ?_⟩
    exact (Job.orderly_addPragmas file config.warnings).mapFailure _

end Orderly

section Stages

variable [Storage σ] {invocation : Invocation} {files : σ}
  {job : Config → Script RunFailure Unit} {failure : Failure} {config : Config}

/-- The configuration of a run, with the level of the flag if there is one. -/
def Invocation.settled (invocation : Invocation) (loaded : Config) : Config :=
  { loaded with level := invocation.level.getD loaded.level }

/-- A configuration that does not load leaves the log at its default level. One that loads sets the
level before it is announced, so the announcement may be hidden. -/
theorem Invocation.run_prepare (invocation : Invocation) (world : World σ) :
    invocation.prepare.run world = match Job.loaded world.files invocation.config with
      | .error failure =>
        (.error ⟨some .loadConfig, failure⟩, { world with bound := some Config.defaultLevel })
      | .ok loaded => (.ok (invocation.settled loaded),
          ({ world with bound := some (invocation.settled loaded).level } : World σ).record
            (invocation.settled loaded).announcement) := by
  simp only [prepare, Script.run_bind, Script.run, Script.within, Script.run_mapFailure,
    Job.run_loadConfig]
  cases Job.loaded world.files invocation.config with
  | error failure => rfl
  | ok loaded => rfl

def failureOf : Except RunFailure Unit → Option RunFailure
  | .ok () => none
  | .error failure => some failure

/-- Without a required path neither the configuration nor any other file is opened. -/
theorem Invocation.run_of_missing (missing : invocation.command.job = .error failure) :
    invocation.run files = ⟨some ⟨none, failure⟩, [], files⟩ := by
  simp only [run, script, missing, Script.checked, Except.mapError, Script.run_bind,
    Script.run_ofExcept]

/-- Without a configuration nothing is shown, since nothing is logged before it is loaded. -/
theorem Invocation.run_of_not_loaded (given : invocation.command.job = .ok job)
    (failed : Job.loaded files invocation.config = .error failure) :
    invocation.run files = ⟨some ⟨some .loadConfig, failure⟩, [], files⟩ := by
  simp only [run, script, given, Script.checked, Except.mapError, Script.run_bind,
    Script.run_ofExcept, run_prepare, failed]

/-- With a configuration the run is the announcement followed by the job of the command, whose
records are shown within the level that was set. -/
theorem Invocation.run_of_loaded (given : invocation.command.job = .ok job)
    (loaded : Job.loaded files invocation.config = .ok config) :
    invocation.run files =
      ⟨failureOf ((job (invocation.settled config)).effect files).1,
        ((invocation.settled config).announcement ::
          (job (invocation.settled config)).records files).filter
            fun r => r.level.within (some (invocation.settled config).level),
        ((job (invocation.settled config)).effect files).2⟩ := by
  obtain ⟨source, target, -, -, orderly⟩ := (Command.does_of_job given).orderly
  simp only [run, script, given, Script.checked, Except.mapError, Script.run_bind,
    Script.run_ofExcept, run_prepare, loaded, (orderly _).run_eq_ending, Script.ending,
    World.record_eq]
  rw [List.nil_append, ← List.filter_append, List.singleton_append]
  cases ((job (invocation.settled config)).effect files).1 with
  | ok a => rfl
  | error failure => rfl

end Stages

end ProtoPrep
