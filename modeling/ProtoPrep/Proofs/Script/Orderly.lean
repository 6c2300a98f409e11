import ProtoPrep.Proofs.Files.FileSystem
import ProtoPrep.Proofs.Script.Effect

/-!
# Orderly scripts

An orderly script reads before it writes, and once a write has succeeded it only logs.
So it has changed nothing if it fails, and all that it does is told by what it reads
and by whether it can write. It leaves the bound of the log alone, and what it shows
are the records within the bound.
-/

namespace ProtoPrep.Script

variable {ε ε' α β : Type} {reads writes : Text → Prop}

inductive OnlyLogs : Script ε α → Prop where
  | done (a : α) : OnlyLogs (.done a)
  | log (record : Record) {next : Script ε α} : OnlyLogs next → OnlyLogs (.log record next)

/-- A script that reads the one paths, then writes one of the others, and then only logs. -/
inductive Orderly (reads writes : Text → Prop) : Script ε α → Prop where
  | done (a : α) : Orderly reads writes (.done a)
  | fail (e : ε) : Orderly reads writes (.fail e)
  | read {path : Text} {next : Except Files.Cause Text → Script ε α} : reads path →
      (∀ answer, Orderly reads writes (next answer)) → Orderly reads writes (.read path next)
  | write {path content : Text} {next : Except Files.Cause Unit → Script ε α} : writes path →
      (∀ cause, Orderly reads writes (next (.error cause))) → OnlyLogs (next (.ok ())) →
      Orderly reads writes (.write path content next)
  | log (record : Record) {next : Script ε α} : Orderly reads writes next →
      Orderly reads writes (.log record next)

section Closure

variable {script : Script ε α} {next : α → Script ε β}

theorem onlyLogs_logAll (rs : List Record) : OnlyLogs (logAll rs : Script ε Unit) := by
  induction rs with
  | nil => exact .done ()
  | cons r rs ih => exact .log r ih

theorem OnlyLogs.bind (h : script.OnlyLogs) (rest : ∀ a, (next a).OnlyLogs) :
    (script >>= next).OnlyLogs := by
  induction h with
  | done a => exact rest a
  | log record _ ih => exact .log record ih

theorem OnlyLogs.orderly (h : script.OnlyLogs) : script.Orderly reads writes := by
  induction h with
  | done a => exact .done a
  | log record _ ih => exact .log record ih

theorem OnlyLogs.mapFailure (f : ε → ε') (h : script.OnlyLogs) :
    (script.mapFailure f).OnlyLogs := by
  induction h with
  | done a => exact .done a
  | log record _ ih => exact .log record ih

theorem orderly_ofExcept (result : Except ε α) : (ofExcept result).Orderly reads writes := by
  cases result with
  | ok a => exact .done a
  | error e => exact .fail e

/-- A script that never writes may be followed by any orderly one. -/
theorem Orderly.bind (h : script.Orderly reads fun _ => False)
    (rest : ∀ a, (next a).Orderly reads writes) : (script >>= next).Orderly reads writes := by
  induction h with
  | done a => exact rest a
  | fail e => exact .fail e
  | read allowed _ ih => exact .read allowed ih
  | write never => exact never.elim
  | log record _ ih => exact .log record ih

/-- A script that writes may be followed by one that only logs. -/
theorem Orderly.bind_onlyLogs (h : script.Orderly reads writes) (rest : ∀ a, (next a).OnlyLogs) :
    (script >>= next).Orderly reads writes := by
  induction h with
  | done a => exact (rest a).orderly
  | fail e => exact .fail e
  | read allowed _ ih => exact .read allowed ih
  | write allowed _ written ih => exact .write allowed ih (written.bind rest)
  | log record _ ih => exact .log record ih

/-- A failure may be put in a context without changing the order of reads and writes. -/
theorem Orderly.mapFailure (f : ε → ε') (h : script.Orderly reads writes) :
    (script.mapFailure f).Orderly reads writes := by
  induction h with
  | done a => exact .done a
  | fail e => exact .fail (f e)
  | read allowed _ ih => exact .read allowed ih
  | write allowed _ written ih => exact .write allowed ih (written.mapFailure f)
  | log record _ ih => exact .log record ih

end Closure

section Run

variable {σ : Type} [Files.Storage σ] {script : Script ε α}

/-- A script that only logs ends with one result and one list of records, whatever the files are. -/
theorem OnlyLogs.effect (h : script.OnlyLogs) :
    ∃ a rs, ∀ files : σ, script.effect files = (.ok a, files) ∧ script.records files = rs := by
  induction h with
  | done a => exact ⟨a, [], fun files => ⟨rfl, rfl⟩⟩
  | log record _ ih =>
    obtain ⟨a, rs, ends⟩ := ih
    exact ⟨a, record :: rs, fun files => ⟨(ends files).1, congrArg _ (ends files).2⟩⟩

theorem OnlyLogs.effect_eq {script : Script ε Unit} (h : script.OnlyLogs) (files : σ) :
    script.effect files = (.ok (), files) := by
  obtain ⟨⟨⟩, _, ends⟩ := h.effect (σ := σ)
  exact (ends files).1

/-- If an orderly script fails, the files are as they were. -/
theorem Orderly.files_of_error (h : script.Orderly reads writes) {files : σ} {e : ε}
    (failed : (script.effect files).1 = .error e) : (script.effect files).2 = files := by
  induction h with
  | done a => rfl
  | fail e => rfl
  | read _ _ ih => exact ih _ failed
  | @write path content next _ _ written ih =>
    rw [Script.effect] at failed ⊢
    cases answer : Files.Storage.writeText files path content with
    | error cause =>
      rw [answer] at failed
      exact ih cause failed
    | ok after =>
      obtain ⟨a, _, ends⟩ := written.effect (σ := σ)
      simp only [answer, ends] at failed
      cases failed
  | log _ _ ih => exact ih failed

/-- How a run ends that leaves the bound alone. Records are shown if they are within the bound. -/
def ending (script : Script ε α) (world : World σ) : Except ε α × World σ :=
  ((script.effect world.files).1, ⟨(script.effect world.files).2, world.bound,
    world.shown ++ (script.records world.files).filter fun r => r.level.within world.bound⟩)

theorem run_log_eq_ending {record : Record} {next : Script ε α} (world : World σ)
    (ends : ∀ world : World σ, next.run world = next.ending world) :
    (log record next).run world = (log record next).ending world := by
  rw [run, ends, World.record_eq, ending, ending, List.append_assoc, ← List.filter_append]
  rfl

theorem OnlyLogs.run_eq_ending (h : script.OnlyLogs) (world : World σ) :
    script.run world = script.ending world := by
  induction h generalizing world with
  | done a => simp [run, ending, Script.effect, records]
  | log record _ ih => exact run_log_eq_ending world ih

/-- An orderly script leaves the bound alone, so its records can be filtered when it has ended. -/
theorem Orderly.run_eq_ending (h : script.Orderly reads writes) (world : World σ) :
    script.run world = script.ending world := by
  induction h generalizing world with
  | done a => simp [run, ending, Script.effect, records]
  | fail e => simp [run, ending, Script.effect, records]
  | read _ _ ih => exact ih _ world
  | @write path content next _ _ written ih =>
    rw [run, ending, Script.effect, records]
    cases Files.Storage.writeText world.files path content with
    | ok after => exact written.run_eq_ending { world with files := after }
    | error cause => exact ih cause world
  | log record _ ih => exact run_log_eq_ending world ih

end Run

section Apart

open Files

variable {σ : Type} [FileSystem σ] {script : Script ε α} {files : σ} {file : File σ}

/-- An orderly script does the same whatever a file holds that it does not open. -/
theorem Orderly.store (h : script.Orderly reads writes) (there : (content? files file).isSome)
    (unread : ∀ path, reads path → readable files path ≠ .ok file)
    (unwritten : ∀ path, writes path → writable files path ≠ .ok file) (bytes : ByteArray) :
    (script.effect (store files file bytes)).1 = (script.effect files).1 ∧
      script.records (store files file bytes) = script.records files ∧
      SameChanges file files (script.effect files).2 (store files file bytes)
        (script.effect (store files file bytes)).2 := by
  induction h with
  | done a => exact ⟨rfl, rfl, .refl bytes⟩
  | fail e => exact ⟨rfl, rfl, .refl bytes⟩
  | read allowed _ ih =>
    rw [Script.effect, Script.effect, records, records, readText_store there (unread _ allowed)]
    exact ih _
  | @write path content next allowed _ written ih =>
    rw [Script.effect, Script.effect, records, records, FileSystem.writeText_eq,
      FileSystem.writeText_eq, FileSystem.writable_store bytes path there]
    cases opened : writable files path with
    | error cause => exact ih cause
    | ok target =>
      have apart : file ≠ target := fun same => unwritten path allowed (same ▸ opened)
      obtain ⟨a, rs, ends⟩ := written.effect (σ := σ)
      simp only [Except.map, ends]
      exact ⟨trivial, trivial, .stores apart content.encode bytes⟩
  | log record _ ih => exact ⟨ih.1, congrArg (List.cons record) ih.2.1, ih.2.2⟩

end Apart

end ProtoPrep.Script
