import ProtoPrep.Job

/-!
# Commands

A command is a job with its arguments as they were given. Its run checks that every
required path is there before it touches a file, then loads the configuration, sets
the bound of the log, and does the job.
-/

namespace ProtoPrep

inductive Command where
  | convert (input output : Option Text)
  | fixIncludes (file service : Option Text)
  | fixPragmas (file : Option Text)
deriving DecidableEq

structure Invocation where
  command : Command
  config : Option Text
  level : Option Level
deriving DecidableEq

/-- A path that must be given and not be empty. -/
def givenPath (value : Option Text) (what flag : Text) : Except Failure Text :=
  match value with
  | none => .error (.missingArgument what flag)
  | some [] => .error (.missingArgument what flag)
  | some path => .ok path

namespace Script

def within {α : Type} (context : Context) (script : Script Failure α) : Script RunFailure α :=
  script.mapFailure fun failure => ⟨some context, failure⟩

def checked {α : Type} (outcome : Except Failure α) : Script RunFailure α :=
  .ofExcept (outcome.mapError fun failure => ⟨none, failure⟩)

end Script

namespace Report

def summary (report : Report) : List Record :=
  let region := report.region.toList.map fun r =>
    ⟨.info, s!"Removed gateway option block (lines {r.start + 1}-{r.stop})"⟩
  region ++ [⟨.info, s!"Inlined {report.inlined} well-known import(s), " ++
    s!"stripped {report.stripped} import(s) and {report.httpOptions} http option(s), " ++
    s!"renamed {report.renamed} type reference(s)"⟩]

end Report

namespace Config

/-- The record that tells which configuration is used. -/
def announcement (config : Config) : Record :=
  ⟨.debug, "Using configuration: " ++ config.describe⟩

/-- The configuration for a service that is given. It is checked with the name of that service. -/
def forService (config : Config) : Option Text → Except Invalid Config
  | none => .ok config
  | some name =>
    let renamed := { config with serviceName := name }
    renamed.check.map fun () => renamed

end Config

namespace Command

def converting (input output : Text) : Script RunFailure Unit := do
  let report ← (Job.convert input output).within (.convert input)
  Script.logAll report.summary

def fixing (file : Text) (service : Option Text) (loaded : Config) : Script RunFailure Unit := do
  let outcome := (loaded.forService service).mapError fun reason => Failure.config (.invalid reason)
  let config ← (Script.ofExcept outcome).within .serviceFlag
  let _ ← (Job.fixIncludes file config.serviceName).within (.fixIncludes file)

def injecting (file : Text) (config : Config) : Script RunFailure Unit :=
  (Job.addPragmas file config.warnings).within (.addPragmas file)

/-- What a command does once the configuration is loaded, if its required paths are given. -/
def job : Command → Except Failure (Config → Script RunFailure Unit)
  | convert input output => do
    let input ← givenPath input "input file".toList "--input".toList
    let output ← givenPath output "output file".toList "--output".toList
    return fun _ => converting input output
  | fixIncludes file service => do
    let file ← givenPath file "input file".toList "--file".toList
    return fixing file service
  | fixPragmas file => do
    let file ← givenPath file "input file".toList "--file".toList
    return injecting file

end Command

namespace Invocation

def prepare (invocation : Invocation) : Script RunFailure Config := do
  .bound Config.defaultLevel (.done ())
  let loaded ← (Job.loadConfig invocation.config).within .loadConfig
  let config := { loaded with level := invocation.level.getD loaded.level }
  .bound config.level (.done ())
  Script.logAll [config.announcement]
  return config

def script (invocation : Invocation) : Script RunFailure Unit := do
  let job ← Script.checked invocation.command.job
  let config ← invocation.prepare
  job config

end Invocation

structure Outcome (σ : Type := Files.Tree) where
  failure : Option RunFailure
  shown : List Record
  files : σ

namespace Outcome

variable {σ : Type}

def status (outcome : Outcome σ) : Nat :=
  if outcome.failure.isSome then 1 else 0

/-- The log lines, written at the given clock time, and the diagnostic. -/
def stderr (clock : String) (outcome : Outcome σ) : String :=
  String.join (outcome.shown.map (Record.line clock)) ++
    (outcome.failure.map RunFailure.diagnostic).getD ""

end Outcome

/-- Run a command on files. The log is empty and shows nothing at first. -/
def Invocation.run {σ : Type} [Files.Storage σ] (invocation : Invocation) (files : σ) : Outcome σ :=
  match invocation.script.run ⟨files, none, []⟩ with
  | (.ok (), world) => ⟨none, world.shown, world.files⟩
  | (.error failure, world) => ⟨some failure, world.shown, world.files⟩

end ProtoPrep
