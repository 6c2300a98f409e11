import ProtoPrep.Proofs.Command.Course

/-!
# Runs that fail

A run that fails has changed nothing: its only write comes after every check and every
read, and it cannot fail once that write has succeeded. If a required path is missing,
the first such path decides alone what the run comes to. Both hold on every storage.
-/

namespace ProtoPrep

open Files

variable {σ : Type} [Storage σ]

theorem failureOf_eq_some {result : Except RunFailure Unit} {failure : RunFailure}
    (h : failureOf result = some failure) : result = .error failure := by
  cases result with
  | ok a => cases h
  | error e =>
    cases h
    rfl

theorem Outcome.status_eq_one_iff {σ : Type} {outcome : Outcome σ} :
    outcome.status = 1 ↔ ∃ failure, outcome.failure = some failure := by
  rw [status, ← Option.isSome_iff_exists]
  cases outcome.failure.isSome <;> simp

theorem Outcome.stderr_of_nothing_shown {σ : Type} (clock : String) (failure : RunFailure)
    (files : σ) : (⟨some failure, [], files⟩ : Outcome σ).stderr clock = failure.diagnostic := by
  rw [stderr, List.map_nil, String.join_nil, String.empty_append]
  rfl

theorem Failure.message_missingArgument (what flag : Text) : message (.missingArgument what flag) =
    "No path to " ++ String.ofList what ++ " given. Use " ++ String.ofList flag ++ "." :=
  rfl

/-- A missing argument is told without the context and without the word for an error. -/
theorem RunFailure.diagnostic_missingArgument (context : Option Context) (what flag : Text) :
    (RunFailure.mk context (.missingArgument what flag)).diagnostic =
      "No path to " ++ String.ofList what ++ " given. Use " ++ String.ofList flag ++ "." ++
        "\n" := by
  rw [diagnostic, ← Failure.message_missingArgument]
  exact if_pos rfl

namespace Invocation

/-- A run that fails has written nothing: a write that fails changes nothing, and behind the one
write of a script nothing can fail. -/
theorem files_of_failure {invocation : Invocation} {files : σ} {failure : RunFailure}
    (failed : (invocation.run files).failure = some failure) :
    (invocation.run files).files = files := by
  rcases invocation.command.job_cases with ⟨need, _, missing⟩ | ⟨job, _, given, does⟩
  · rw [run_of_missing missing]
  cases loaded : Job.loaded files invocation.config with
  | error problem => rw [run_of_not_loaded given loaded]
  | ok config =>
    obtain ⟨source, target, _, _, orderly⟩ := does.orderly
    rw [run_of_loaded given loaded] at failed ⊢
    exact (orderly _).files_of_error (failureOf_eq_some failed)

/-- A run that fails leaves the files as they were. If required paths are missing, the run fails
with the diagnostic of the first one and shows nothing else. -/
theorem run_atomic (invocation : Invocation) (files : σ) :
    ((invocation.run files).status = 1 → (invocation.run files).files = files) ∧
      ∀ need, invocation.command.required.find? Requirement.isMissing = some need →
        (invocation.run files).status = 1 ∧ ∀ clock, (invocation.run files).stderr clock =
          "No path to " ++ String.ofList need.what ++ " given. Use " ++ String.ofList need.flag ++
            "." ++ "\n" := by
  constructor
  · intro failed
    obtain ⟨failure, failed⟩ := Outcome.status_eq_one_iff.mp failed
    exact files_of_failure failed
  · intro need first
    rcases invocation.command.job_cases with ⟨need', first', missing⟩ | ⟨_, none_missing, _⟩
    · obtain rfl : need' = need := Option.some.inj (first'.symm.trans first)
      rw [run_of_missing missing]
      refine ⟨rfl, fun clock => ?_⟩
      rw [Outcome.stderr_of_nothing_shown, RunFailure.diagnostic_missingArgument]
    · exact nomatch none_missing.symm.trans first

/-- A source that cannot be read, and a command without a path. -/
theorem run_atomic_of_no_source :
    let files : Tree := ⟨[(["a".toList], .directory)]⟩
    let unread : Invocation := ⟨.fixIncludes (some "a".toList) none, none, none⟩
    let bare : Invocation := ⟨.convert (some "a".toList) none, some "c".toList, some .trace⟩
    ((unread.run files).status = 1 ∧ (unread.run files).files = files) ∧
      (bare.run files).status = 1 ∧ (bare.run files).stderr "" =
        "No path to " ++ String.ofList "output file".toList ++ " given. Use " ++
          String.ofList "--output".toList ++ "." ++ "\n" := by
  intro files unread bare
  have failed : (unread.run files).status = 1 := by rfl
  have missing := (run_atomic bare files).2
    ⟨none, "output file".toList, "--output".toList⟩ rfl
  exact ⟨⟨failed, (run_atomic unread files).1 failed⟩, missing.1, missing.2 ""⟩

end Invocation

end ProtoPrep
