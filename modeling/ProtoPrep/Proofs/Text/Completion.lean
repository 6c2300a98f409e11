import ProtoPrep.Proofs.Text.Insertion

/-!
# What a replacement completes

A text that begins nowhere in what is inserted stands after a replacement only where it
stood before, or where an insertion completes it: the replaced text stood behind the part
of it that comes before the insertion. So what replacements bring about is told by the
ways to complete it, which are few.
-/

namespace ProtoPrep.Text

open scoped List

variable {lead new w t : Text}

/-- A text stands after a replacement where it stands after the replacement in some end of the
source, at the beginning. -/
theorem exists_suffix_of_replace (nonempty : lead ≠ []) (outside : Unbegun w new)
    (h : w <:+: (replace lead new t).text) :
    ∃ s, s <:+ t ∧ w <+: (replace lead new s).text := by
  obtain ⟨front, after, whole⟩ := h
  rw [List.append_assoc] at whole
  induction t using replace_induction nonempty generalizing front with
  | nil =>
    rw [replace_nil nonempty] at whole
    obtain ⟨_, rest⟩ := List.append_eq_nil_iff.mp whole
    exact ⟨[], List.nil_suffix, after, by rw [rest, replace_nil nonempty]⟩
  | found r ih =>
    rw [replace_append nonempty] at whole
    have later (front : Text) (whole : front ++ (w ++ after) = (replace lead new r).text) :
        ∃ s, s <:+ lead ++ r ∧ w <+: (replace lead new s).text := by
      obtain ⟨s, ends, begins⟩ := ih front whole
      exact ⟨s, ends.trans (List.suffix_append lead r), begins⟩
    rcases List.append_eq_append_iff.mp whole with ⟨a, rfl, across⟩ | ⟨a, rfl, rest⟩
    · rcases List.append_eq_append_iff.mp across with ⟨b, rfl, rest⟩ | ⟨b, rfl, rest⟩
      · exact absurd ⟨front, b, by simp⟩ outside.not_inside
      · obtain rfl := outside.behind rfl rfl
        exact later [] rest.symm
    · exact later a rest.symm
  | other c r absent ih =>
    have here := replace_cons nonempty absent new
    rcases List.append_eq_cons_iff.mp (whole.trans (congrArg Edit.text here)) with
      ⟨rfl, begins⟩ | ⟨front, rfl, rest⟩
    · exact ⟨c :: r, List.suffix_rfl, after, by rw [begins, here]⟩
    · obtain ⟨s, ends, begins⟩ := ih front rest.symm
      exact ⟨s, ends.trans (List.suffix_cons c r), begins⟩

/-- A text of which an insertion makes all but the beginning `u`: what is inserted behind `u` agrees
with the rest of it. -/
def Completed (new w u : Text) : Prop :=
  ∃ v, w = u ++ v ∧ v ≠ [] ∧ (v <+: new ∨ new <+: v)

/-- What stands at the beginning after a replacement stood there before, or an insertion completes
it. -/
theorem prefix_of_replace (nonempty : lead ≠ []) (h : w <+: (replace lead new t).text) :
    w <+: t ∨ ∃ u, Completed new w u ∧ u ++ lead <+: t := by
  induction t using replace_induction nonempty generalizing w with
  | nil =>
    rw [replace_nil nonempty] at h
    exact Or.inl h
  | found r ih =>
    rw [replace_append nonempty] at h
    by_cases empty : w = []
    · exact Or.inl (empty ▸ List.nil_prefix)
    · have agrees := List.prefix_or_prefix_of_prefix h (List.prefix_append new _)
      exact Or.inr ⟨[], ⟨w, rfl, empty, agrees⟩, List.prefix_append lead r⟩
  | other c r absent ih =>
    rw [replace_cons nonempty absent] at h
    cases w with
    | nil => exact Or.inl List.nil_prefix
    | cons d w =>
      obtain ⟨rfl, behind⟩ := List.cons_prefix_cons.mp h
      rcases ih behind with stood | ⟨u, ⟨v, rfl, solid, agrees⟩, stood⟩
      · exact Or.inl (List.cons_prefix_cons.mpr ⟨rfl, stood⟩)
      · exact Or.inr ⟨d :: u, ⟨v, rfl, solid, agrees⟩, List.cons_prefix_cons.mpr ⟨rfl, stood⟩⟩

theorem Clear.not_completed {u : Text} (clear : Clear w new) : ¬ Completed new w u := by
  rintro ⟨v, rfl, solid, ⟨rest, rfl⟩ | ⟨rest, rfl⟩⟩
  · exact solid (clear.ahead rfl rfl)
  · exact clear.not_around ⟨u, rest, by simp⟩

/-- A text that stands clear of the replacement does not come to stand at the beginning. -/
theorem prefix_of_prefix_replace (nonempty : lead ≠ []) (clear : Clear w new)
    (h : w <+: (replace lead new t).text) : w <+: t := by
  rcases prefix_of_replace nonempty h with stood | ⟨u, completed, _⟩
  · exact stood
  · exact absurd completed clear.not_completed

/-- Nor does it come to stand anywhere else. -/
theorem infix_of_infix_replace (nonempty : lead ≠ []) (clear : Clear w new)
    (h : w <:+: (replace lead new t).text) : w <:+: t := by
  obtain ⟨s, ends, begins⟩ := exists_suffix_of_replace nonempty clear.unbegun h
  exact (prefix_of_prefix_replace nonempty clear begins).isInfix.trans ends.isInfix

/-- A replaced text does not stand at the beginning unless an insertion completes it. -/
theorem completed_of_prefix_replace (nonempty : lead ≠ []) (outside : Unbegun lead new)
    (solid : new ≠ []) (h : lead <+: (replace lead new t).text) :
    ∃ u, Completed new lead u ∧ u ++ lead <+: t := by
  rcases prefix_of_replace nonempty h with ⟨r, rfl⟩ | completed
  · rw [replace_append nonempty] at h
    rcases List.prefix_or_prefix_of_prefix h (List.prefix_append new _) with inside | ⟨v, whole⟩
    · exact absurd inside.isInfix outside.not_inside
    · exact absurd (outside.behind (List.nil_append new).symm whole.symm) solid
  · exact completed

/-- A text that stands clear of its replacement is gone after it was replaced. -/
theorem not_infix_replace (nonempty : lead ≠ []) (clear : Clear lead new) (t : Text) :
    ¬ lead <:+: (replace lead new t).text := by
  intro stands
  obtain ⟨s, _, begins⟩ := exists_suffix_of_replace nonempty clear.unbegun stands
  obtain ⟨u, completed, _⟩ :=
    completed_of_prefix_replace nonempty clear.unbegun clear.ne_nil begins
  exact clear.not_completed completed

end ProtoPrep.Text
