import ProtoPrep.Config.Reader
import ProtoPrep.Proofs.Json.Fields

/-!
# The written forms of warnings

A warning is written as an object or as a list. The members of the object may come in
any order, the code once, the comment at most once, and others as often as they like;
the list holds the code and perhaps the comment. The reader accepts exactly these
forms.
-/

namespace ProtoPrep.Warning

open Json

def keys : List Text :=
  ["code".toList, "comment".toList]

/-- What the values of a code and of a comment give. -/
structure Draft.Fields (draft : Draft) (codes comments : List Text) : Prop where
  code : Gives IsCode codes draft.code
  comment : Gives Quoted comments draft.comment

inductive Draft.Spells (draft : Draft) : Text → Prop where
  | list {vs : List Text} {s : Text} : Items Eq ']' true vs s → vs.length ≤ 2 →
      draft.Fields vs[0]?.toList vs[1]?.toList → Draft.Spells draft ('[' :: s)
  | object {members : List (Text × Text)} {s : Text} : Items IsMember '\x7d' true members s →
      draft.Fields (valuesOf "code".toList members) (valuesOf "comment".toList members) →
      (∀ m ∈ members, m.1 ∉ keys → IsValue m.2) → Draft.Spells draft ('\x7b' :: s)

/-- The written forms of a warning. Its code must be there, its comment may be missing. -/
def Spells (w : Warning) (v : Text) : Prop :=
  ∃ draft : Draft, draft.Spells v ∧ draft.code = some w.code ∧ draft.comment.getD [] = w.comment

/-- A code and a comment are all that there is to the parts of a warning. -/
def parts : Parts Draft where
  list := [⟨"code", Draft.code, fun draft code => { draft with code := some code }, Reader.code,
      IsCode, Reads.code, IsCode.isValue, fun _ _ => rfl⟩,
    ⟨"comment", Draft.comment, fun draft comment => { draft with comment := some comment },
      Reader.string, Quoted, Reads.string, Quoted.isValue, fun _ _ => rfl⟩]
  start := {}
  unset := by simp
  apart := by simpa using ⟨by decide, fun _ _ => rfl, fun _ _ => rfl⟩
  ext := by
    rintro ⟨code, comment⟩ ⟨code', comment'⟩ same
    simpa using same

theorem listed_iff {draft : Draft} {vs : List Text} :
    Part.Listed parts.list vs draft ↔ draft.Fields vs[0]?.toList vs[1]?.toList := by
  rw [← List.head?_eq_getElem?, ← List.head?_tail]
  constructor
  · rintro ⟨code, comment, -⟩
    exact ⟨code, comment⟩
  · rintro ⟨code, comment⟩
    exact ⟨code, comment, trivial⟩

theorem given_iff {draft : Draft} {members : List (Text × Text)} :
    (∀ p ∈ parts.list, Gives p.Spells (valuesOf p.key.toList members) (p.get draft)) ↔
      draft.Fields (valuesOf "code".toList members) (valuesOf "comment".toList members) := by
  constructor
  · intro given
    obtain ⟨code, given⟩ := List.forall_mem_cons.mp given
    obtain ⟨comment, -⟩ := List.forall_mem_cons.mp given
    exact ⟨code, comment⟩
  · rintro ⟨code, comment⟩
    exact List.forall_mem_cons.mpr ⟨code, List.forall_mem_cons.mpr ⟨comment, nofun⟩⟩

/-- The forms of a warning are those of a record of its parts. -/
theorem Draft.spells_iff {draft : Draft} {v : Text} : draft.Spells v ↔ parts.Written draft v := by
  constructor
  · intro h
    cases h with
    | list items short fields => exact .list items short (listed_iff.mpr fields)
    | object items fields others => exact .object items (given_iff.mpr fields) others
  · intro h
    cases h with
    | list items short listed => exact .list items short (listed_iff.mp listed)
    | object items given others => exact .object items (given_iff.mp given) others

/-- The fault of a warning without a code depends on its form; whether it has one does not. -/
theorem Draft.warning_eq_ok_iff {missing : Fault} {draft : Draft} {w : Warning} :
    draft.warning missing = .ok w ↔
      draft.code = some w.code ∧ draft.comment.getD [] = w.comment := by
  obtain ⟨code, comment⟩ := draft
  obtain ⟨n, t⟩ := w
  cases code with
  | none => simp [warning]
  | some m => simp [warning]

theorem reads : Reads reader Spells := by
  have same : Spells = fun w v => ∃ draft : Draft, parts.Written draft v ∧
      draft.code = some w.code ∧ draft.comment.getD [] = w.comment := by
    funext w v
    simp only [Spells, Draft.spells_iff]
  rw [same]
  exact parts.reads Draft.warning_eq_ok_iff Draft.warning_eq_ok_iff

theorem Spells.isValue {w : Warning} {v : Text} (h : Spells w v) : IsValue v := by
  obtain ⟨draft, spells, -⟩ := h
  exact (Draft.spells_iff.mp spells).isValue

end ProtoPrep.Warning
