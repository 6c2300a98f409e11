import ProtoPrep.Script

/-!
# Scripts apart from the log

The bound of the log decides which records are shown and nothing else. So how a script
ends, which files it leaves and which records it writes, shown or not, are all told from
the files alone.
-/

namespace ProtoPrep

theorem World.record_eq {σ : Type} (world : World σ) (r : Record) :
    world.record r = { world with
      shown := world.shown ++ [r].filter fun r => r.level.within world.bound } := by
  rw [record]
  cases shown : r.level.within world.bound with
  | true => simp [shown]
  | false => simp [shown]

namespace Script

variable {ε ε' α β σ : Type} [Files.Storage σ]

/-- How a script ends and which files it leaves. -/
def effect : Script ε α → σ → Except ε α × σ
  | done a, files => (.ok a, files)
  | fail e, files => (.error e, files)
  | read path next, files => (next (Files.Storage.readText files path)).effect files
  | write path content next, files =>
    match Files.Storage.writeText files path content with
    | .ok after => (next (.ok ())).effect after
    | .error cause => (next (.error cause)).effect files
  | log _ next, files => next.effect files
  | bound _ next, files => next.effect files

/-- The records that a script writes to the log, shown or not. -/
def records : Script ε α → σ → List Record
  | done _, _ => []
  | fail _, _ => []
  | read path next, files => (next (Files.Storage.readText files path)).records files
  | write path content next, files =>
    match Files.Storage.writeText files path content with
    | .ok after => (next (.ok ())).records after
    | .error cause => (next (.error cause)).records files
  | log record next, files => record :: next.records files
  | bound _ next, files => next.records files

/-- What is shown and what is to be shown have no influence on the end and on the files. -/
theorem run_effect (script : Script ε α) (world : World σ) :
    ((script.run world).1, (script.run world).2.files) = script.effect world.files := by
  induction script generalizing world with
  | done a => rfl
  | fail e => rfl
  | read path next ih => exact ih _ world
  | write path content next ih =>
    rw [run, effect]
    cases Files.Storage.writeText world.files path content with
    | ok after => exact ih _ { world with files := after }
    | error cause => exact ih _ world
  | log record next ih => rw [run, effect, ih, World.record_eq]
  | bound level next ih => exact ih { world with bound := some level }

/-- By induction on the first script, with the world general. -/
theorem run_bind (script : Script ε α) (next : α → Script ε β) (world : World σ) :
    (script >>= next).run world = match script.run world with
      | (.ok a, after) => (next a).run after
      | (.error e, after) => (.error e, after) := by
  induction script generalizing world with
  | done a => rfl
  | fail e => rfl
  | read path rest ih => exact ih _ world
  | write path content rest ih =>
    change (write path content fun answer => rest answer >>= next).run world = _
    rw [run, run]
    cases Files.Storage.writeText world.files path content with
    | ok after => exact ih _ { world with files := after }
    | error cause => exact ih _ world
  | log record rest ih => exact ih (world.record record)
  | bound level rest ih => exact ih { world with bound := some level }

theorem effect_bind (script : Script ε α) (next : α → Script ε β) (files : σ) :
    (script >>= next).effect files = match script.effect files with
      | (.ok a, after) => (next a).effect after
      | (.error e, after) => (.error e, after) := by
  have first := run_effect script ⟨files, none, []⟩
  have whole := run_effect (script >>= next) ⟨files, none, []⟩
  rw [run_bind] at whole
  rw [← first, ← whole]
  obtain ⟨result, after⟩ := script.run ⟨files, none, []⟩
  cases result with
  | ok a => exact run_effect (next a) after
  | error e => rfl

theorem run_mapFailure (f : ε → ε') (script : Script ε α) (world : World σ) :
    (script.mapFailure f).run world =
      ((script.run world).1.mapError f, (script.run world).2) := by
  induction script generalizing world with
  | done a => rfl
  | fail e => rfl
  | read path next ih => exact ih _ world
  | write path content next ih =>
    rw [mapFailure, run, run]
    cases Files.Storage.writeText world.files path content with
    | ok after => exact ih _ { world with files := after }
    | error cause => exact ih _ world
  | log record next ih => exact ih (world.record record)
  | bound level next ih => exact ih { world with bound := some level }

theorem effect_mapFailure (f : ε → ε') (script : Script ε α) (files : σ) :
    (script.mapFailure f).effect files =
      ((script.effect files).1.mapError f, (script.effect files).2) := by
  have plain := run_effect script ⟨files, none, []⟩
  have mapped := run_effect (script.mapFailure f) ⟨files, none, []⟩
  rw [run_mapFailure] at mapped
  rw [← mapped, ← plain]

theorem run_ofExcept (result : Except ε α) (world : World σ) :
    (ofExcept result).run world = (result, world) := by
  cases result <;> rfl

theorem effect_ofExcept (result : Except ε α) (files : σ) :
    (ofExcept result).effect files = (result, files) := by
  cases result <;> rfl

theorem effect_logAll (rs : List Record) (files : σ) :
    (logAll rs : Script ε Unit).effect files = (.ok (), files) := by
  induction rs with
  | nil => rfl
  | cons r rs ih => exact ih

end Script

end ProtoPrep
