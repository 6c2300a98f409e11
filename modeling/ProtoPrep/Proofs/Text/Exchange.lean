import ProtoPrep.Proofs.Text.Completion

/-!
# Two replacements in either order

Two given texts that cannot overlap each other may be replaced in either order if none
of them begins in what is inserted for the other one, and if neither replacement makes
the other text stand where it did not. Both orders read the text in the same steps: one
of the given texts, or else a character at which none of them begins.
-/

namespace ProtoPrep.Text

section Clear

variable {lead t : Text}

/-- A text in which nothing that is replaced begins stays, whatever comes behind it. -/
theorem replace_append_of_unbegun (nonempty : lead ≠ []) (outside : Unbegun lead t)
    (new r : Text) :
    replace lead new (t ++ r) = ⟨t ++ (replace lead new r).text, (replace lead new r).count⟩ := by
  have ending (u w : Text) (split : t = u ++ w) :
      replace lead new (w ++ r) = ⟨w ++ (replace lead new r).text, (replace lead new r).count⟩ := by
    induction w generalizing u with
    | nil => rfl
    | cons c w ih =>
      have absent : ¬ lead <+: c :: (w ++ r) := by
        rintro ⟨after, whole⟩
        rw [← List.cons_append] at whole
        rcases List.append_eq_append_iff.mp whole with ⟨x, inside, _⟩ | ⟨x, across, _⟩
        · exact outside.not_inside ⟨u, x, by rw [split, inside, List.append_assoc]⟩
        · exact absurd (outside.behind split across) (List.cons_ne_nil c w)
      rw [List.cons_append, replace_cons nonempty absent, ih (u ++ [c]) (by simp [split])]
      rfl
  exact ending [] t rfl

/-- A text that stands clear of what is replaced stays where it stands, and both sides of it are
worked on by themselves. -/
theorem replace_around_of_clear (nonempty : lead ≠ []) (clear : Clear lead t) (new s r : Text) :
    replace lead new (s ++ (t ++ r)) =
      ⟨(replace lead new s).text ++ (t ++ (replace lead new r).text),
        (replace lead new s).count + (replace lead new r).count⟩ := by
  induction s using replace_induction nonempty with
  | nil =>
    rw [List.nil_append, replace_append_of_unbegun nonempty clear.unbegun, replace_nil nonempty,
      Nat.zero_add]
    rfl
  | found s ih =>
    rw [List.append_assoc, replace_append nonempty, replace_append nonempty, ih,
      List.append_assoc, Nat.add_right_comm]
  | other c s absent ih =>
    have still : ¬ lead <+: c :: (s ++ (t ++ r)) := by
      rintro ⟨after, whole⟩
      have across : c :: s ++ (t ++ r) = [] ++ (lead ++ after) := whole.symm
      rcases clear.cases across with ⟨tail, inside⟩ | ⟨between, nothing, _⟩
      · exact absent ⟨tail, inside.symm⟩
      · cases nothing
    rw [List.cons_append, replace_cons nonempty still, replace_cons nonempty absent, ih]
    rfl

end Clear

/-- Replacing `a` by `x` and replacing `b` by `y` in a text, in either order. -/
structure Exchangeable (a x b y t : Text) : Prop where
  nonempty : a ≠ []
  nonempty' : b ≠ []
  apart : Clear a b
  outside : Unbegun a y
  outside' : Unbegun b x
  /-- Where the first text stands after the second was replaced, it stood before. -/
  kept : ∀ {s}, s <:+ t → a <+: (replace b y s).text → a <+: s
  kept' : ∀ {s}, s <:+ t → b <+: (replace a x s).text → b <+: s

namespace Exchangeable

variable {a b x y t r : Text}

theorem symm (h : Exchangeable a x b y t) : Exchangeable b y a x t :=
  ⟨h.nonempty', h.nonempty, h.apart.symm, h.outside', h.outside, h.kept', h.kept⟩

/-- What is asked of a text holds of its endings, so that an induction can go on behind the first
character. -/
theorem of_suffix (h : Exchangeable a x b y t) (ends : r <:+ t) : Exchangeable a x b y r where
  nonempty := h.nonempty
  nonempty' := h.nonempty'
  apart := h.apart
  outside := h.outside
  outside' := h.outside'
  kept further := h.kept (further.trans ends)
  kept' further := h.kept' (further.trans ends)

theorem replace_cons {c : Char} (h : Exchangeable a x b y (c :: r)) (absent : ¬ a <+: c :: r)
    (absent' : ¬ b <+: c :: r) :
    replace b y (replace a x (c :: r)).text =
      ⟨c :: (replace b y (replace a x r).text).text, (replace b y (replace a x r).text).count⟩ := by
  have here := Text.replace_cons h.nonempty absent x
  have still : ¬ b <+: c :: (replace a x r).text := by
    intro begins
    refine absent' (h.kept' List.suffix_rfl ?_)
    rw [here]
    exact begins
  rw [here, Text.replace_cons h.nonempty' still]

/-- What is inserted for the first text is left alone when the second one is replaced. -/
theorem replace_first (h : Exchangeable a x b y t) (r : Text) :
    replace b y (replace a x (a ++ r)).text =
      ⟨x ++ (replace b y (replace a x r).text).text, (replace b y (replace a x r).text).count⟩ := by
  rw [replace_append h.nonempty, replace_append_of_unbegun h.nonempty' h.outside']

/-- The second text is replaced where it stands, before and after the first one is. -/
theorem replace_second (h : Exchangeable a x b y t) (r : Text) :
    replace b y (replace a x (b ++ r)).text =
      ⟨y ++ (replace b y (replace a x r).text).text,
        (replace b y (replace a x r).text).count + 1⟩ := by
  rw [replace_append_of_unbegun h.nonempty h.apart.unbegun, replace_append h.nonempty']

/-- Both orders give the same text, and each given text is found as often as if it alone were
replaced. -/
theorem replace_comm (h : Exchangeable a x b y t) :
    (replace b y (replace a x t).text).text = (replace a x (replace b y t).text).text ∧
      (replace b y (replace a x t).text).count = (replace b y t).count ∧
      (replace a x (replace b y t).text).count = (replace a x t).count := by
  induction size : t.length using Nat.strongRecOn generalizing t with
  | ind n ih =>
    have long := List.length_pos_iff.mpr h.nonempty
    have long' := List.length_pos_iff.mpr h.nonempty'
    by_cases first : a <+: t
    · obtain ⟨r, rfl⟩ := first
      rw [List.length_append] at size
      obtain ⟨texts, counts, counts'⟩ :=
        ih r.length (by omega) (h.of_suffix (List.suffix_append a r)) rfl
      rw [h.replace_first, h.symm.replace_second, replace_append h.nonempty,
        replace_append_of_unbegun h.nonempty' h.apart.symm.unbegun, texts, counts, counts']
      exact ⟨rfl, rfl, rfl⟩
    by_cases second : b <+: t
    · obtain ⟨r, rfl⟩ := second
      rw [List.length_append] at size
      obtain ⟨texts, counts, counts'⟩ :=
        ih r.length (by omega) (h.of_suffix (List.suffix_append b r)) rfl
      rw [h.replace_second, h.symm.replace_first, replace_append h.nonempty',
        replace_append_of_unbegun h.nonempty h.apart.unbegun, texts, counts, counts']
      exact ⟨rfl, rfl, rfl⟩
    cases t with
    | nil => simp [replace_nil h.nonempty, replace_nil h.nonempty']
    | cons c r =>
      rw [List.length_cons] at size
      obtain ⟨texts, counts, counts'⟩ :=
        ih r.length (by omega) (h.of_suffix (List.suffix_cons c r)) rfl
      rw [h.replace_cons first second, h.symm.replace_cons second first,
        Text.replace_cons h.nonempty first, Text.replace_cons h.nonempty' second, texts, counts,
        counts']
      exact ⟨rfl, rfl, rfl⟩

end Exchangeable

/-- Replacing `a` by `x` and replacing `b` by `y`: none touches what the other one looks for or
inserts. -/
structure Independent (a x b y : Text) : Prop where
  nonempty : a ≠ []
  nonempty' : b ≠ []
  apart : Clear a b
  clear : Clear a y
  clear' : Clear b x

namespace Independent

variable {a b x y : Text}

instance (a x b y : Text) : Decidable (Independent a x b y) :=
  decidable_of_iff (a ≠ [] ∧ b ≠ [] ∧ Clear a b ∧ Clear a y ∧ Clear b x)
    ⟨fun ⟨h₁, h₂, h₃, h₄, h₅⟩ => ⟨h₁, h₂, h₃, h₄, h₅⟩,
      fun ⟨h₁, h₂, h₃, h₄, h₅⟩ => ⟨h₁, h₂, h₃, h₄, h₅⟩⟩

theorem symm (h : Independent a x b y) : Independent b y a x :=
  ⟨h.nonempty', h.nonempty, h.apart.symm, h.clear', h.clear⟩

/-- Replacements that do not touch each other can be exchanged in every text. -/
theorem exchangeable (h : Independent a x b y) (t : Text) : Exchangeable a x b y t where
  nonempty := h.nonempty
  nonempty' := h.nonempty'
  apart := h.apart
  outside := h.clear.unbegun
  outside' := h.clear'.unbegun
  kept _ begins := prefix_of_prefix_replace h.nonempty' h.clear begins
  kept' _ begins := prefix_of_prefix_replace h.nonempty h.clear' begins

end Independent

end ProtoPrep.Text
