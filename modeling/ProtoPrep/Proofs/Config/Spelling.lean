import ProtoPrep.Config.Reader
import ProtoPrep.Proofs.Config.LevelSpelling
import ProtoPrep.Proofs.Config.WarningSpelling

/-!
# The written forms of configurations

A configuration is written as an object or as a list. The object has its members in
any order, and each known key at most once; the list has the first fields in their
order. A text is parsed as a configuration exactly if it spells it.
-/

namespace ProtoPrep.Config

open Json

def keys : List Text :=
  ["service_name".toList, "pragma_warnings".toList, "log_level".toList]

/-- What the values of a name, of warnings and of a level give. -/
structure Draft.Fields (draft : Draft) (names warnings levels : List Text) : Prop where
  serviceName : Gives Quoted names draft.serviceName
  warnings : Gives (Listed Warning.Spells) warnings draft.warnings
  level : Gives Level.Spells levels draft.level

inductive Draft.Spells (draft : Draft) : Text → Prop where
  | list {vs : List Text} {s : Text} : Items Eq ']' true vs s → vs.length ≤ 3 →
      draft.Fields vs[0]?.toList vs[1]?.toList vs[2]?.toList → Draft.Spells draft ('[' :: s)
  | object {members : List (Text × Text)} {s : Text} : Items IsMember '\x7d' true members s →
      draft.Fields (valuesOf "service_name".toList members)
        (valuesOf "pragma_warnings".toList members) (valuesOf "log_level".toList members) →
      (∀ m ∈ members, m.1 ∉ keys → IsValue m.2) → Draft.Spells draft ('\x7b' :: s)

/-- The texts that spell a configuration: some of its parts between white space. The parts that
are missing have their defaults. -/
def Spells (config : Config) (t : Text) : Prop :=
  ∃ (draft : Draft) (before v after : Text), IsSpacing before ∧ draft.Spells v ∧
    IsSpacing after ∧ t = before ++ (v ++ after) ∧
    config = ⟨draft.serviceName.getD defaultServiceName, draft.warnings.getD defaultWarnings,
      draft.level.getD defaultLevel⟩

theorem isValue_of_warnings {ws : List Warning} {v : Text} (h : Listed Warning.Spells ws v) :
    IsValue v := by
  obtain ⟨s, rfl, items⟩ := h
  exact isValue_of_elements items fun _ _ _ => Warning.Spells.isValue

/-- A name, warnings and a level are all that there is to the parts of a configuration. -/
def parts : Parts Draft where
  list := [⟨"service_name", Draft.serviceName,
      fun draft name => { draft with serviceName := some name },
      Reader.string, Quoted, Reads.string, Quoted.isValue, fun _ _ => rfl⟩,
    ⟨"pragma_warnings", Draft.warnings, fun draft ws => { draft with warnings := some ws },
      Reader.list Warning.reader, Listed Warning.Spells, Warning.reads.list, isValue_of_warnings,
      fun _ _ => rfl⟩,
    ⟨"log_level", Draft.level, fun draft level => { draft with level := some level },
      Level.reader, Level.Spells, Level.reads, Level.Spells.isValue, fun _ _ => rfl⟩]
  start := {}
  unset := by simp
  apart := by
    simp only [List.pairwise_cons, List.forall_mem_cons, List.not_mem_nil, false_implies,
      implies_true, List.Pairwise.nil, and_true]
    exact ⟨⟨⟨by decide, fun _ _ => rfl, fun _ _ => rfl⟩, by decide, fun _ _ => rfl, fun _ _ => rfl⟩,
      by decide, fun _ _ => rfl, fun _ _ => rfl⟩
  ext := by
    rintro ⟨name, ws, level⟩ ⟨name', ws', level'⟩ same
    simpa using same

theorem listed_iff {draft : Draft} {vs : List Text} : Part.Listed parts.list vs draft ↔
    draft.Fields vs[0]?.toList vs[1]?.toList vs[2]?.toList := by
  rw [← List.head?_eq_getElem?, ← List.head?_tail, ← List.getElem?_tail, ← List.head?_tail]
  constructor
  · rintro ⟨name, ws, level, -⟩
    exact ⟨name, ws, level⟩
  · rintro ⟨name, ws, level⟩
    exact ⟨name, ws, level, trivial⟩

theorem given_iff {draft : Draft} {members : List (Text × Text)} :
    (∀ p ∈ parts.list, Gives p.Spells (valuesOf p.key.toList members) (p.get draft)) ↔
      draft.Fields (valuesOf "service_name".toList members)
        (valuesOf "pragma_warnings".toList members) (valuesOf "log_level".toList members) := by
  constructor
  · intro given
    obtain ⟨name, given⟩ := List.forall_mem_cons.mp given
    obtain ⟨ws, given⟩ := List.forall_mem_cons.mp given
    obtain ⟨level, -⟩ := List.forall_mem_cons.mp given
    exact ⟨name, ws, level⟩
  · rintro ⟨name, ws, level⟩
    exact List.forall_mem_cons.mpr ⟨name, List.forall_mem_cons.mpr ⟨ws,
      List.forall_mem_cons.mpr ⟨level, nofun⟩⟩⟩

/-- The forms of a configuration are those of a record of its parts. -/
theorem Draft.spells_iff {draft : Draft} {v : Text} : draft.Spells v ↔ parts.Written draft v := by
  constructor
  · intro h
    cases h with
    | list items short fields => exact .list items short (listed_iff.mpr fields)
    | object items fields others => exact .object items (given_iff.mpr fields) others
  · intro h
    cases h with
    | list items short listed => exact .list items short (listed_iff.mp listed)
    | object items given others => exact .object items (given_iff.mp given) others

/-- The parts of a configuration are read from their written forms and from nothing else. -/
theorem reads : Reads reader Draft.Spells := by
  have same : Draft.Spells = fun draft v => ∃ last, parts.Written last v ∧ last = draft := by
    funext draft v
    simp only [Draft.spells_iff, exists_eq_right]
  rw [same]
  exact parts.reads (Iff.of_eq (Except.ok.injEq _ _)) (Iff.of_eq (Except.ok.injEq _ _))

/-- A text is parsed as a configuration exactly if it spells it. -/
theorem parse_eq_ok_iff {config : Config} {t : Text} :
    parse t = .ok config ↔ config.Spells t := by
  constructor
  · intro h
    replace h := ok_of_bind h
    obtain ⟨⟨draft, after⟩, read, h⟩ := h
    obtain ⟨before, v, spacing, spells, rfl⟩ := reads.sound read
    dsimp only at h
    split at h
    · rename_i ends
      cases h
      exact ⟨draft, before, v, after, spacing, spells, skipSpace_eq_nil_iff.mp ends, rfl, rfl⟩
    · cases h
  · rintro ⟨draft, before, v, after, spacing, spells, spacing', rfl, rfl⟩
    have ends := skipSpace_eq_nil_iff.mpr spacing'
    have read := reads.complete spells spacing spacing'.delimited
    simp only [parse, read, bind, Except.bind, ends]
    rfl

/-- A configuration has no spelling that is not a document of the grammar. -/
theorem Spells.isDocument {config : Config} {t : Text} (h : config.Spells t) : IsDocument t := by
  obtain ⟨draft, before, v, after, spacing, spells, spacing', whole, -⟩ := h
  exact ⟨before, v, after, spacing, (Draft.spells_iff.mp spells).isValue, spacing', whole⟩

end ProtoPrep.Config
