import Mathlib.Data.List.Forall2
import ProtoPrep.Proofs.Command.Course

/-!
# The level of the log

The level that is given on the command line decides which records are shown. It has no
part in how a run ends or in what becomes of the files, and it does not change what is
written to the log, but for the one record that names it.
-/

namespace ProtoPrep

open Files

variable {σ : Type} [Storage σ]

theorem Level.within_trace (level : Level) : level.within (some .trace) = true := by
  cases level <;> rfl

namespace Record

/-- Two records are the same, or they announce configurations that differ in the level only, which
is the one level in the first record and the other in the second. -/
inductive SameButLevel (level level' : Level) : Record → Record → Prop where
  | same (r : Record) : SameButLevel level level' r r
  | announcement (config : Config) : SameButLevel level level'
      { config with level := level }.announcement { config with level := level' }.announcement

/-- The level that a configuration sets is not the level of its announcement, so both records are
shown or neither. -/
theorem SameButLevel.level_eq {level level' : Level} {r s : Record}
    (h : SameButLevel level level' r s) : r.level = s.level := by
  cases h with
  | same => rfl
  | announcement => rfl

end Record

/-- The check does not look at the level. -/
theorem Config.forService_level (config : Config) (service : Option Text) (level : Level) :
    { config with level := level }.forService service =
      (config.forService service).map fun settled => { settled with level := level } := by
  cases service with
  | none => rfl
  | some name =>
    change (({ config with serviceName := name } : Config).check.map _) = _
    rw [forService]
    cases ({ config with serviceName := name } : Config).check with
    | ok u => rfl
    | error reason => rfl

/-- What a command does is the same script at every level. -/
theorem Command.Does.job_level {command : Command} {job : Config → Script RunFailure Unit}
    (h : command.Does job) (config : Config) (level : Level) :
    job { config with level := level } = job config := by
  cases h with
  | convert => rfl
  | fixPragmas => rfl
  | fixIncludes service =>
    rw [fixing, fixing, Config.forService_level]
    cases config.forService service with
    | ok settled => rfl
    | error reason => rfl

namespace Invocation

/-- The invocation with a level that is given on the command line. -/
def atLevel (invocation : Invocation) (level : Level) : Invocation :=
  { invocation with level := some level }

/-- The records of the run that are shown at every level, each as far as its own level is within it,
but for the one that names the level. -/
theorem exists_course (invocation : Invocation) (files : σ) :
    (∃ failure, ∀ level, (invocation.atLevel level).run files = ⟨some failure, [], files⟩) ∨
    ∃ (config : Config) (failure : Option RunFailure) (rs : List Record) (after : σ), ∀ level,
      (invocation.atLevel level).run files = ⟨failure,
        ({ config with level := level }.announcement :: rs).filter
          fun r => r.level.within (some level), after⟩ := by
  rcases invocation.command.job_cases with ⟨need, _, missing⟩ | ⟨job, _, given, does⟩
  · exact Or.inl ⟨_, fun level => run_of_missing missing⟩
  cases loaded : Job.loaded files invocation.config with
  | error failure => exact Or.inl ⟨_, fun level => run_of_not_loaded given loaded⟩
  | ok config =>
    refine Or.inr ⟨config, failureOf ((job config).effect files).1, (job config).records files,
      ((job config).effect files).2, fun level => ?_⟩
    have ran : (invocation.atLevel level).run files = _ := run_of_loaded given loaded
    rw [ran, ← does.job_level config level]
    rfl

/-- Two levels give the same failure or none, and the same files. What is shown at a level is what
is shown at the last one, as far as it is within the level, but for the level that is named. -/
theorem run_verbosity (invocation : Invocation) (files : σ) (level level' : Level) :
    ((invocation.atLevel level).run files).status = ((invocation.atLevel level').run files).status ∧
      ((invocation.atLevel level).run files).failure =
        ((invocation.atLevel level').run files).failure ∧
      ((invocation.atLevel level).run files).files =
        ((invocation.atLevel level').run files).files ∧
      List.Forall₂ (Record.SameButLevel level .trace) ((invocation.atLevel level).run files).shown
        (((invocation.atLevel .trace).run files).shown.filter
          fun r => r.level.within (some level)) := by
  rcases invocation.exists_course files with
    ⟨failure, course⟩ | ⟨config, failure, rs, after, course⟩
  · simp only [course]
    exact ⟨trivial, trivial, trivial, .nil⟩
  · simp only [course, Outcome.status, Level.within_trace, List.filter_true]
    refine ⟨trivial, trivial, trivial, ?_⟩
    have rest : List.Forall₂ (Record.SameButLevel level .trace) rs rs :=
      List.forall₂_same.mpr fun r _ => .same r
    refine List.rel_filter ?_ (.cons (.announcement config) rest)
    intro r s related
    simp only [related.level_eq]

end Invocation

end ProtoPrep
