import Mathlib.Data.List.Basic
import ProtoPrep.Schema.OptionTrigger

/-!
# The written form of the beginning of an option

The recogniser accepts exactly the two written forms, and no two of them begin at
one position.
-/

namespace ProtoPrep

/-- The written form of the beginning of an option: at most one blank after the keyword. -/
inductive IsTrigger (name : Text) : Text → Prop where
  | joined : IsTrigger name ("option".toList ++ '(' :: name ++ [')'])
  | spaced {c : Char} (blank : isBlank c = true) :
      IsTrigger name ("option".toList ++ c :: '(' :: name ++ [')'])

namespace OptionTrigger

variable {name : Text}

theorem rest?_eq_some_iff {t rest : Text} :
    rest? name t = some rest ↔ ∃ trigger, IsTrigger name trigger ∧ trigger ++ rest = t := by
  constructor
  · intro h
    obtain ⟨r, word, named⟩ := Option.bind_eq_some_iff.mp h
    rw [Text.after?_eq_some_iff] at word named
    subst word
    cases r with
    | nil => cases named
    | cons c r =>
      rw [dropBlank] at named
      split at named
      · rename_i blank
        subst named
        exact ⟨_, .spaced blank, by simp⟩
      · rw [← named]
        exact ⟨_, .joined, by simp⟩
  · rintro ⟨trigger, written, rfl⟩
    have named : ∀ t, dropBlank t = '(' :: name ++ [')'] ++ rest →
        rest? name ("option".toList ++ t) = some rest := by
      intro t same
      have word : Text.after? "option".toList ("option".toList ++ t) = some t :=
        Text.after?_eq_some_iff.mpr rfl
      rw [rest?, word, Option.bind_some, same, Text.after?_eq_some_iff]
    cases written with
    | joined =>
      rw [List.append_assoc, List.append_assoc]
      exact named _ (by rw [List.cons_append, dropBlank, if_neg (by decide)]; simp)
    | spaced blank =>
      rw [List.append_assoc, List.append_assoc]
      exact named _ (by rw [List.cons_append, dropBlank, if_pos blank]; simp)

theorem rest?_append {trigger : Text} (h : IsTrigger name trigger) (rest : Text) :
    rest? name (trigger ++ rest) = some rest :=
  rest?_eq_some_iff.mpr ⟨trigger, h, rfl⟩

theorem rest?_eq_none_iff {t : Text} : rest? name t = none ↔
    ∀ trigger rest, IsTrigger name trigger → trigger ++ rest ≠ t := by
  constructor
  · intro unmatched trigger rest written whole
    rw [← whole, rest?_append written] at unmatched
    cases unmatched
  · intro unmatched
    by_contra some_here
    obtain ⟨rest, found⟩ := Option.ne_none_iff_exists'.mp some_here
    obtain ⟨trigger, written, whole⟩ := rest?_eq_some_iff.mp found
    exact unmatched trigger rest written whole

end OptionTrigger

namespace IsTrigger

variable {name trigger other : Text}

/-- A text begins with one beginning of an option at most. -/
theorem eq_of_append_eq {rest after : Text} (h : IsTrigger name trigger) (g : IsTrigger name other)
    (same : trigger ++ rest = other ++ after) : trigger = other ∧ rest = after := by
  have first := OptionTrigger.rest?_append h rest
  rw [same, OptionTrigger.rest?_append g] at first
  obtain rfl := Option.some.inj first
  exact ⟨List.append_cancel_right same, rfl⟩

/-- The characters of a beginning. -/
theorem mem_or_isBlank {c : Char} (h : IsTrigger name trigger) (member : c ∈ trigger) :
    c ∈ "option".toList ++ '(' :: name ++ [')'] ∨ isBlank c = true := by
  cases h with
  | joined => exact Or.inl member
  | @spaced d blank =>
    by_cases same : c = d
    · exact Or.inr (same ▸ blank)
    · refine Or.inl ?_
      simp only [List.mem_append, List.mem_cons, same, false_or] at member ⊢
      exact member

end IsTrigger

end ProtoPrep
