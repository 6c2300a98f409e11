import ProtoPrep.Proofs.Command.Course

/-!
# Runs that succeed

Each command is a function of the text of its source and of the configuration. A run
succeeds exactly if it is given all that the function needs and a target that can be
written, and then the target holds the value of the function and no other file has
changed. The source is read before the target is written, so the paths of the run may
lead to one file.
-/

namespace ProtoPrep

open Files

namespace Script

variable {ε ε' α β σ : Type} [Storage σ] {files after : σ} {a : α} {b : β}

theorem mapError_eq_ok_iff {f : ε → ε'} {result : Except ε α} :
    result.mapError f = .ok a ↔ result = .ok a := by
  cases result <;> simp [Except.mapError]

theorem effect_bind_eq_ok_iff {script : Script ε α} {next : α → Script ε β} :
    (script >>= next).effect files = (.ok b, after) ↔ ∃ a middle,
      script.effect files = (.ok a, middle) ∧ (next a).effect middle = (.ok b, after) := by
  rw [effect_bind]
  obtain ⟨result, middle⟩ := script.effect files
  cases result with
  | ok a => simp
  | error e => simp

theorem effect_mapFailure_eq_ok_iff {f : ε → ε'} {script : Script ε α} :
    (script.mapFailure f).effect files = (.ok a, after) ↔
      script.effect files = (.ok a, after) := by
  rw [effect_mapFailure, Prod.ext_iff, Prod.ext_iff, mapError_eq_ok_iff]

theorem effect_ofExcept_eq_ok_iff {result : Except ε α} :
    (ofExcept result).effect files = (.ok a, after) ↔ result = .ok a ∧ files = after := by
  rw [effect_ofExcept, Prod.mk.injEq]

/-- Logging at the end has no part in whether a script succeeds. -/
theorem effect_bind_onlyLogs_eq_ok_iff {script : Script ε α} {notes : α → Script ε Unit}
    {result : α → β} (logs : ∀ a, (notes a).OnlyLogs) :
    (script >>= fun a => notes a >>= fun _ => pure (result a)).effect files = (.ok b, after) ↔
      ∃ a, script.effect files = (.ok a, after) ∧ result a = b := by
  simp only [effect_bind_eq_ok_iff, (logs _).effect_eq, pure, effect, Prod.mk.injEq,
    Except.ok.injEq]
  constructor
  · rintro ⟨a, _, succeeds, _, _, ⟨_, rfl⟩, rfl, rfl⟩
    exact ⟨a, succeeds, rfl⟩
  · rintro ⟨a, succeeds, rfl⟩
    exact ⟨a, after, succeeds, (), after, ⟨trivial, rfl⟩, rfl, rfl⟩

end Script

namespace Job

open Script

variable {σ : Type} [Storage σ] {files after : σ} {path t : Text}

theorem effect_read_eq_ok_iff : (read path).effect files = (.ok t, after) ↔
    Storage.readText files path = .ok t ∧ files = after := by
  rw [read, effect, effect_ofExcept_eq_ok_iff, mapError_eq_ok_iff]

theorem effect_write_eq_ok_iff {u : Unit} : (write path t).effect files = (.ok u, after) ↔
    Storage.writeText files path t = .ok after := by
  rw [write, effect]
  cases Storage.writeText files path t with
  | ok written => simp [effect_ofExcept_eq_ok_iff, mapError_eq_ok_iff]
  | error cause => simp [effect_ofExcept_eq_ok_iff, mapError_eq_ok_iff]

theorem effect_edit_eq_ok_iff {α : Type} {change : Text → Text × α} {a : α} :
    (edit path change).effect files = (.ok a, after) ↔
      ∃ t, Storage.readText files path = .ok t ∧
        Storage.writeText files path (change t).1 = .ok after ∧ (change t).2 = a := by
  simp [edit, effect_bind_eq_ok_iff, effect_read_eq_ok_iff, effect_write_eq_ok_iff, effect, pure]

/-- The schema is read before its target is written, so the two may be one file. -/
theorem effect_convert_eq_ok_iff {input output : Text} {report : Report} :
    (convert input output).effect files = (.ok report, after) ↔
      ∃ t, Storage.readText files input = .ok t ∧
        Storage.writeText files output (reduce t).text = .ok after ∧
          (reduce t).report = report := by
  simp [convert, effect_bind_eq_ok_iff, effect_read_eq_ok_iff, effect_write_eq_ok_iff,
    effect_logAll, (onlyLogs_note _ _).effect_eq, effect, pure]

theorem effect_fixIncludes_eq_ok_iff {service : Text} {count : Nat} :
    (fixIncludes path service).effect files = (.ok count, after) ↔
      ∃ t, Storage.readText files path = .ok t ∧
        Storage.writeText files path (WrapperInclude.fix service t).text = .ok after ∧
          (WrapperInclude.fix service t).count = count := by
  rw [fixIncludes, effect_bind_onlyLogs_eq_ok_iff (onlyLogs_noteFixes path service)]
  simp [effect_edit_eq_ok_iff]

theorem effect_addPragmas_eq_ok_iff {warnings : List Warning} {u : Unit} :
    (addPragmas path warnings).effect files = (.ok u, after) ↔
      ∃ t, Storage.readText files path = .ok t ∧
        Storage.writeText files path (PragmaBlock.render warnings ++ t) = .ok after := by
  simp [addPragmas, PragmaBlock.prepend, effect_bind_eq_ok_iff, effect_edit_eq_ok_iff,
    (onlyLogs_note _ _).effect_eq]

end Job

namespace Command

def service? : Command → Option Text
  | fixIncludes _ service => service
  | _ => none

/-- What a command makes of the text of its source. -/
def product (command : Command) (config : Config) (t : Text) : Text :=
  match command with
  | convert _ _ => (reduce t).text
  | fixIncludes _ service => (WrapperInclude.fix (service.getD config.serviceName) t).text
  | fixPragmas _ => PragmaBlock.render config.warnings ++ t

end Command

/-- A service that is given is checked, and the one that is configured was checked before. -/
theorem Config.forService_eq_ok_iff {config settled : Config} {service : Option Text} :
    config.forService service = .ok settled ↔
      (∀ name ∈ service, { config with serviceName := name }.check = .ok ()) ∧
        { config with serviceName := service.getD config.serviceName } = settled := by
  cases service with
  | none => simp [forService]
  | some name =>
    simp only [forService, Option.mem_some, forall_eq', Option.getD_some]
    cases ({ config with serviceName := name } : Config).check with
    | ok u => simp [Except.map]
    | error reason => simp [Except.map]

section Does

open Script

variable {σ : Type} [Storage σ] {files after : σ} {command : Command} {config : Config}
  {job : Config → Script RunFailure Unit}

/-- A command succeeds if the service that it is given is accepted, its source can be read and its
target can be written, and it writes what it makes of its source. -/
theorem Command.Does.effect_eq_ok_iff (h : command.Does job) {u : Unit} :
    (job config).effect files = (.ok u, after) ↔
      (∀ name ∈ command.service?, { config with serviceName := name }.check = .ok ()) ∧
        ∃ source target t, command.source? = some source ∧ command.target? = some target ∧
          Storage.readText files source = .ok t ∧
            Storage.writeText files target (command.product config t) = .ok after := by
  cases h with
  | convert _ _ =>
    simp [converting, within, effect_bind_eq_ok_iff, effect_mapFailure_eq_ok_iff,
      Job.effect_convert_eq_ok_iff, effect_logAll, service?, source?, target?, product]
  | fixIncludes service _ =>
    simp [fixing, within, effect_bind_eq_ok_iff, effect_mapFailure_eq_ok_iff,
      effect_ofExcept_eq_ok_iff, mapError_eq_ok_iff, Config.forService_eq_ok_iff,
      Job.effect_fixIncludes_eq_ok_iff, effect, pure, service?, source?, target?, product]
  | fixPragmas _ =>
    simp [injecting, within, effect_mapFailure_eq_ok_iff, Job.effect_addPragmas_eq_ok_iff,
      service?, source?, target?, product]

end Does

theorem Outcome.status_eq_zero_iff {σ : Type} {outcome : Outcome σ} :
    outcome.status = 0 ↔ outcome.failure = none := by
  rw [status]
  cases outcome.failure with
  | none => simp
  | some failure => simp

section Run

variable {σ : Type} [FileSystem σ] {files : σ}

/-- All that a run needs to succeed: its required paths, its configuration, a service that passes
the check if one is named, a source with a text, and a target that can be written. -/
structure Invocation.Ready (invocation : Invocation) (files : σ) (config : Config) (t : Text)
    (target : File σ) : Prop where
  given : ∀ need ∈ invocation.command.required, ∃ path ∈ need.value, path ≠ []
  configured : config.IsGiven files invocation.config
  accepted : ∀ name ∈ invocation.command.service?, { config with serviceName := name }.IsValid
  source : ∃ path ∈ invocation.command.source?, ∃ file,
    readable files path = .ok file ∧ content? files file = some t.encode
  target : ∃ path ∈ invocation.command.target?, writable files path = .ok target

/-- A command that has something to do was given all of its required paths. -/
theorem Command.Does.given {command : Command} {job : Config → Script RunFailure Unit}
    (h : command.Does job) : ∀ need ∈ command.required, ∃ path ∈ need.value, path ≠ [] := by
  cases h with
  | convert input_given output_given => simp [required, input_given, output_given]
  | fixIncludes _ file_given => simp [required, file_given]
  | fixPragmas file_given => simp [required, file_given]

namespace Invocation

variable {invocation : Invocation} {config : Config} {t : Text} {target : File σ}

/-- The level of the flag has no part in what a command makes of its source. -/
theorem product_settled (invocation : Invocation) (config : Config) (t : Text) :
    invocation.command.product (invocation.settled config) t =
      invocation.command.product config t := by
  cases invocation.command <;> rfl

/-- With its paths and its configuration a command needs no more than `Ready` says. -/
theorem effect_eq_ok_iff {job : Config → Script RunFailure Unit}
    (does : invocation.command.Does job) (configured : config.IsGiven files invocation.config)
    {after : σ} : (job (invocation.settled config)).effect files = (.ok (), after) ↔
      ∃ t target, invocation.Ready files config t target ∧
        store files target (invocation.command.product config t).encode = after := by
  rw [does.effect_eq_ok_iff]
  constructor
  · rintro ⟨accepted, source, path, t, isSource, isTarget, read, written⟩
    rw [product_settled, FileSystem.writeText_eq] at written
    obtain ⟨target, opened, stored⟩ := Json.ok_of_map written
    refine ⟨t, target, ⟨does.given, configured, ?_, ?_, path, isTarget, opened⟩, stored⟩
    · intro name named
      exact Config.check_eq_ok_iff.mp (accepted name named)
    · exact ⟨source, isSource, readText_eq_ok_iff.mp read⟩
  · rintro ⟨t, target, ready, stored⟩
    obtain ⟨source, isSource, holds⟩ := ready.source
    obtain ⟨path, isTarget, opened⟩ := ready.target
    refine ⟨?_, source, path, t, isSource, isTarget, readText_eq_ok_iff.mpr holds, ?_⟩
    · intro name named
      have checked := Config.check_eq_ok_iff.mpr (ready.accepted name named)
      exact checked
    · rw [product_settled, FileSystem.writeText_eq, opened, ← stored]
      rfl

/-- A run that has all that it needs does not fail, and its one change is the content of the
target. -/
theorem run_of_ready (ready : invocation.Ready files config t target) :
    (invocation.run files).failure = none ∧ (invocation.run files).files =
      store files target (invocation.command.product config t).encode := by
  rcases invocation.command.job_cases with ⟨need, first, _⟩ | ⟨job, _, given, does⟩
  · obtain ⟨path, isPath, nonempty⟩ := ready.given need (List.mem_of_find?_eq_some first)
    have missing := List.find?_some first
    simp [Requirement.isMissing, Option.mem_def.mp isPath, nonempty] at missing
  · rw [run_of_loaded given (Job.loaded_eq_ok_iff.mpr ready.configured),
      (effect_eq_ok_iff does ready.configured).mpr ⟨t, target, ready, rfl⟩]
    exact ⟨rfl, rfl⟩

/-- A run that does not fail has all that it needs, as it fails at the first thing that it lacks. -/
theorem ready_of_run (succeeds : (invocation.run files).failure = none) :
    ∃ config t target, invocation.Ready files config t target := by
  rcases invocation.command.job_cases with ⟨need, _, missing⟩ | ⟨job, _, given, does⟩
  · rw [run_of_missing missing] at succeeds
    cases succeeds
  cases loaded : Job.loaded files invocation.config with
  | error failure =>
    rw [run_of_not_loaded given loaded] at succeeds
    cases succeeds
  | ok config =>
    rw [run_of_loaded given loaded] at succeeds
    have configured := Job.loaded_eq_ok_iff.mp loaded
    cases ended : ((job (invocation.settled config)).effect files).1 with
    | error failure =>
      rw [ended] at succeeds
      cases succeeds
    | ok u =>
      obtain ⟨t, target, ready, _⟩ := (effect_eq_ok_iff does configured).mp (Prod.ext ended rfl)
      exact ⟨config, t, target, ready⟩

/-- A run succeeds exactly if it has all that it needs. Then the target holds what the command
makes of the text that the source held, and every other file holds what it held. -/
theorem run_success (invocation : Invocation) (files : σ) :
    ((invocation.run files).status = 0 ↔
      ∃ config t target, invocation.Ready files config t target) ∧
    ∀ config t target, invocation.Ready files config t target →
      content? (invocation.run files).files target =
          some (invocation.command.product config t).encode ∧
        ∀ other, other ≠ target →
          content? (invocation.run files).files other = content? files other := by
  constructor
  · rw [Outcome.status_eq_zero_iff]
    constructor
    · exact ready_of_run
    · rintro ⟨config, t, target, ready⟩
      exact (run_of_ready ready).1
  · intro config t target ready
    rw [(run_of_ready ready).2]
    exact ⟨FileSystem.content?_store_self _ _ _, fun _ => FileSystem.content?_store_other⟩

/-- A configuration file that is its own source and target. -/
theorem run_success_of_one_file :
    let path : Text := "c".toList
    let text : Text := "[\"s\", [[7, \"x\"]]]".toList
    let files : Tree := ⟨[([path], .file text.encode)]⟩
    let file : File Tree := ⟨[path], nofun⟩
    let invocation : Invocation := ⟨.fixPragmas (some path), some path, none⟩
    let config : Config := ⟨"s".toList, [⟨7, "x".toList⟩], .info⟩
    invocation.Ready files config text file ∧ (invocation.run files).status = 0 ∧
      content? (invocation.run files).files file = some (Text.encode
        ("// Extra pramas to fix compilation in UE4.  DO NOT EDIT!\n" ++
          "#pragma warning (disable : 7) // x\n\n" ++ "[\"s\", [[7, \"x\"]]]").toList) := by
  intro path text files file invocation config
  have spells : config.Spells text := Config.spells_of_parse (by decide +kernel)
  have ready : invocation.Ready files config text file :=
    { given := by
        intro need required
        obtain rfl := List.mem_singleton.mp required
        exact ⟨path, rfl, nofun⟩
      configured := ⟨⟨file, rfl, text, rfl, spells⟩, Config.check_eq_ok_iff.mp (by decide)⟩
      accepted := nofun
      source := ⟨path, rfl, file, rfl, rfl⟩
      target := ⟨path, rfl, rfl⟩ }
  have success := run_success invocation files
  exact ⟨ready, success.1.mpr ⟨_, _, _, ready⟩, (success.2 _ _ _ ready).1⟩

end Invocation

end Run

end ProtoPrep
