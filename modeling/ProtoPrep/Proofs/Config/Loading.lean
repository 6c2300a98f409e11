import ProtoPrep.Job
import ProtoPrep.Proofs.Config.Spelling
import ProtoPrep.Proofs.Config.Validity
import ProtoPrep.Proofs.Files.FileSystem
import ProtoPrep.Proofs.Script.Effect

/-!
# Loading a configuration

A file loads exactly if it is the UTF-8 form of a text that spells a valid
configuration, and what is loaded is that configuration. Every other file, and every
path that cannot be read, is a problem of the configuration and not of a file. Nothing
is asked of the storage but that a path which can be read leads to a file.
-/

namespace ProtoPrep

open Files Json

section Spelling

variable {config : Config} {t : Text}

/-- Parsing and checking are all that there is to loading a text. -/
theorem Config.load_eq_ok_iff : load t = .ok config ↔ config.Spells t ∧ config.check = .ok () := by
  constructor
  · intro h
    replace h := ok_of_bind h
    obtain ⟨found, spelled, h⟩ := h
    replace h := ok_of_bind h
    obtain ⟨⟨⟩, checked, h⟩ := h
    cases h
    exact ⟨parse_eq_ok_iff.mp (ok_of_mapError spelled), ok_of_mapError checked⟩
  · rintro ⟨spells, valid⟩
    have parsed := parse_eq_ok_iff.mpr spells
    simp only [load, ofText, parsed, Except.mapError, bind, Except.bind, valid, pure, Except.pure]

/-- Which spelling was chosen has no part in the outcome. -/
theorem Config.load_of_spelling (spells : config.Spells t) :
    load t = (config.check.mapError ConfigProblem.invalid).map fun () => config := by
  simp only [load, ofText, parse_eq_ok_iff.mpr spells, Except.mapError, bind, Except.bind]
  cases config.check with
  | ok u => rfl
  | error reason => rfl

/-- A text spells what it is parsed as, so that a spelling can be computed. -/
theorem Config.spells_of_parse (parsed : (parse t).toOption = some config) : config.Spells t := by
  cases result : parse t with
  | error stop =>
    rw [result] at parsed
    cases parsed
  | ok found =>
    rw [result] at parsed
    cases parsed
    exact parse_eq_ok_iff.mp result

end Spelling

section Storage

variable {σ : Type} [Storage σ] {files : σ}

/-- What loading a configuration comes to. -/
def Job.loaded (files : σ) : Option Text → Except Failure Config
  | none => .ok .default
  | some path =>
    match Storage.readText files path with
    | .error cause => .error (.config (.unreadable path cause))
    | .ok t => (Config.load t).mapError Failure.config

/-- Loading changes neither the files nor the log. -/
theorem Job.run_loadConfig (path : Option Text) (world : World σ) :
    (Job.loadConfig path).run world = (Job.loaded world.files path, world) := by
  cases path with
  | none => rfl
  | some path =>
    rw [Job.loadConfig, Script.run, Job.loaded]
    cases Storage.readText world.files path with
    | error cause => rfl
    | ok t => exact Script.run_ofExcept _ world

/-- A configuration file is refused for the reason for which its configuration is. -/
theorem Job.loaded_of_spelling {config : Config} {path t : Text}
    (read : Storage.readText files path = .ok t) (spells : config.Spells t) :
    Job.loaded files (some path) =
      (config.check.map fun () => config).mapError fun reason => .config (.invalid reason) := by
  simp only [loaded, read, Config.load_of_spelling spells]
  cases config.check with
  | ok u => rfl
  | error reason => rfl

/-- Loading fails with a problem of the configuration, whatever keeps the file from being read. -/
theorem Job.exists_problem_of_loaded {path : Option Text} {failure : Failure}
    (failed : Job.loaded files path = .error failure) : ∃ problem, failure = .config problem := by
  cases path with
  | none => cases failed
  | some path =>
    rw [loaded] at failed
    split at failed
    · cases failed
      exact ⟨_, rfl⟩
    · rename_i t _
      cases result : Config.load t with
      | error problem =>
        rw [result] at failed
        cases failed
        exact ⟨problem, rfl⟩
      | ok config =>
        rw [result] at failed
        cases failed

end Storage

section FileSystem

variable {σ : Type} [FileSystem σ] {files : σ} {file : File σ} {path : Text} {config : Config}

/-- A path leads to a file that spells a configuration. -/
structure Config.IsKept (config : Config) (files : σ) (path : Text) (file : File σ) : Prop where
  opened : readable files path = .ok file
  spelled : ∃ t, content? files file = some t.encode ∧ config.Spells t

theorem Config.IsKept.exists_content (h : config.IsKept files path file) :
    (content? files file).isSome := by
  obtain ⟨t, holds, -⟩ := h.spelled
  rw [holds]
  rfl

theorem Config.IsKept.loaded (h : config.IsKept files path file) : Job.loaded files (some path) =
    (config.check.map fun () => config).mapError fun reason => .config (.invalid reason) := by
  obtain ⟨t, holds, spells⟩ := h.spelled
  exact Job.loaded_of_spelling (readText_eq_ok_iff.mpr ⟨file, h.opened, holds⟩) spells

theorem Config.IsKept.loaded_of_valid (h : config.IsKept files path file)
    (valid : config.check = .ok ()) : Job.loaded files (some path) = .ok config := by
  rw [h.loaded, valid]
  rfl

theorem Config.IsKept.loaded_of_refused {reason : Config.Invalid}
    (h : config.IsKept files path file) (refused : config.check = .error reason) :
    Job.loaded files (some path) = .error (.config (.invalid reason)) := by
  rw [h.loaded, refused]
  rfl

/-- A path leads to the same file after the file was given another spelling. -/
theorem Config.IsKept.store (h : config.IsKept files path file) {other : Config} {u : Text}
    (spells : other.Spells u) :
    other.IsKept (FileSystem.store files file u.encode) path file where
  opened := (FileSystem.readable_store _ _ h.exists_content).trans h.opened
  spelled := ⟨u, FileSystem.content?_store_self _ _ _, spells⟩

/-- The configuration of a run: the valid one that the given file spells, or the default one if no
file is given. -/
def Config.IsGiven (config : Config) (files : σ) : Option Text → Prop
  | none => config = .default
  | some path => (∃ file, config.IsKept files path file) ∧ config.IsValid

/-- Loading succeeds on a file with a spelling of a valid configuration, or without a file. -/
theorem Job.loaded_eq_ok_iff {path : Option Text} :
    Job.loaded files path = .ok config ↔ config.IsGiven files path := by
  cases path with
  | none => simp [loaded, Config.IsGiven, eq_comm]
  | some path =>
    constructor
    · intro found
      rw [loaded] at found
      split at found
      · cases found
      · rename_i t read
        obtain ⟨file, opened, holds⟩ := readText_eq_ok_iff.mp read
        obtain ⟨spells, valid⟩ := Config.load_eq_ok_iff.mp (ok_of_mapError found)
        exact ⟨⟨file, opened, t, holds, spells⟩, Config.check_eq_ok_iff.mp valid⟩
    · rintro ⟨⟨file, kept⟩, valid⟩
      exact kept.loaded_of_valid (Config.check_eq_ok_iff.mpr valid)

/-- A path can be read, and what it leads to is the UTF-8 form of one document, which spells a
valid configuration. -/
def Config.InFile (config : Config) (files : σ) (path : Text) : Prop :=
  ∃ (file : File σ) (t : Text), readable files path = .ok file ∧
    content? files file = some t.encode ∧ IsDocument t ∧ config.Spells t ∧ config.IsValid

/-- That a file is one document says nothing beyond what it spells. -/
theorem Config.inFile_iff : config.InFile files path ↔ config.IsGiven files (some path) := by
  constructor
  · rintro ⟨file, t, opened, holds, -, spells, valid⟩
    exact ⟨⟨file, opened, t, holds, spells⟩, valid⟩
  · rintro ⟨⟨file, opened, t, holds, spells⟩, valid⟩
    exact ⟨file, t, opened, holds, spells.isDocument, spells, valid⟩

namespace Job

/-- Every spelling of a valid configuration loads as that configuration. -/
theorem loadConfig_of_spelling {t : Text} {world : World σ} (valid : config.check = .ok ())
    (spells : config.Spells t) (opened : readable world.files path = .ok file)
    (holds : content? world.files file = some t.encode) :
    (loadConfig (some path)).run world = (.ok config, world) := by
  have kept : config.IsKept world.files path file := ⟨opened, t, holds, spells⟩
  rw [run_loadConfig, kept.loaded_of_valid valid]

/-- A name that is left out, escapes in a key and in a comment, and members that are passed over. -/
theorem loadConfig_of_escapes :
    let t : Text := ("\n\x7b \"z\": [1.5e+3, \x7b\"\\uD800\": null\x7d], \"z\": [],\r\n" ++
      "\"log\\u005flevel\": \x7b\"trace\" : null\x7d, \"pragma_warnings\": [ [4800], " ++
      "\x7b\"comment\": \"\\uD83D\\ude00\\/\", \"x\": -0, \"code\": 7\x7d]\x7d ").toList
    let config : Config := ⟨"economy_service".toList, [⟨4800, []⟩, ⟨7, "😀/".toList⟩], .trace⟩
    let world : World := ⟨⟨[(["c.json".toList], .file t.encode)]⟩, none, []⟩
    let file : File Tree := ⟨["c.json".toList], nofun⟩
    config.check = .ok () ∧ config.Spells t ∧ readable world.files "c.json".toList = .ok file ∧
      content? world.files file = some t.encode ∧
        (loadConfig (some "c.json".toList)).run world = (.ok config, world) := by
  intro t config world file
  have valid : config.check = .ok () := by decide
  have spells : config.Spells t := Config.spells_of_parse (by decide +kernel)
  have opened : readable world.files "c.json".toList = .ok file := by rfl
  have holds : content? world.files file = some t.encode := by rfl
  exact ⟨valid, spells, opened, holds, loadConfig_of_spelling valid spells opened holds⟩

/-- What is loaded is a valid configuration that the file spells. If nothing is loaded, the file
spells no valid one, and the failure is a problem of the configuration. -/
theorem loadConfig_outcome (path : Text) (world : World σ) :
    match ((loadConfig (some path)).run world).1 with
    | .ok config => config.InFile world.files path
    | .error failure => (∀ config : Config, ¬ config.InFile world.files path) ∧
        ∃ problem, failure = .config problem := by
  rw [run_loadConfig]
  dsimp only
  cases result : loaded world.files (some path) with
  | ok config => exact Config.inFile_iff.mpr (loaded_eq_ok_iff.mp result)
  | error failure =>
    refine ⟨fun config inFile => ?_, exists_problem_of_loaded result⟩
    have found := loaded_eq_ok_iff.mpr (Config.inFile_iff.mp inFile)
    rw [result] at found
    cases found

end Job

end FileSystem

end ProtoPrep
