import Mathlib.Data.List.Infix
import ProtoPrep.Proofs.Text.Literal

/-!
# Where a text stands after a replacement

A text that cannot overlap what is inserted stands, after a replacement, in one of
the gaps between the insertions. So it stood there before, behind the same character
or behind a match.
-/

namespace ProtoPrep

namespace Text

/-- A text that never overlaps another, wherever the two stand side by side. -/
structure Clear (t new : Text) : Prop where
  /-- No end of the text begins the other one. -/
  ahead : ∀ {u v w}, t = u ++ v → new = v ++ w → v = []
  /-- No end of the other one begins the text. -/
  behind : ∀ {u v w}, new = u ++ v → t = v ++ w → v = []
  not_inside : ¬ t <:+: new
  not_around : ¬ new <:+: t

theorem Clear.symm {t new : Text} (h : Clear t new) : Clear new t where
  ahead whole begins := h.behind whole begins
  behind whole begins := h.ahead whole begins
  not_inside := h.not_around
  not_around := h.not_inside

theorem Clear.ne_nil {t new : Text} (h : Clear t new) : new ≠ [] := by
  rintro rfl
  exact h.not_around List.nil_infix

instance (t new : Text) : Decidable (Clear t new) :=
  decidable_of_iff ((∀ v ∈ t.tails, v <+: new → v = []) ∧ (∀ v ∈ new.tails, v <+: t → v = []) ∧
      t.occursIn new = false ∧ new.occursIn t = false) <| by
    simp only [← Bool.not_eq_true, occursIn_iff, List.mem_tails]
    constructor
    · rintro ⟨ahead, behind, not_inside, not_around⟩
      exact ⟨fun ends begins => ahead _ ⟨_, ends.symm⟩ ⟨_, begins.symm⟩,
        fun ends begins => behind _ ⟨_, ends.symm⟩ ⟨_, begins.symm⟩, not_inside, not_around⟩
    · intro clear
      refine ⟨?_, ?_, clear.not_inside, clear.not_around⟩
      · rintro v ⟨u, ends⟩ ⟨w, begins⟩
        exact clear.ahead ends.symm begins.symm
      · rintro v ⟨u, ends⟩ ⟨w, begins⟩
        exact clear.behind ends.symm begins.symm

/-- Where a text can stand across the end of a gap that an insertion follows: in the gap, or
behind the insertion. -/
theorem Clear.cases {t new gap rest lead after : Text} (clear : Clear t new)
    (whole : gap ++ (new ++ rest) = lead ++ (t ++ after)) :
    (∃ tail, gap = lead ++ (t ++ tail)) ∨
      ∃ between, lead = gap ++ (new ++ between) ∧ rest = between ++ (t ++ after) := by
  -- The text begins in the insertion or behind it, or else in the gap, and may reach beyond.
  rcases List.append_eq_append_iff.mp whole with ⟨a, rfl, behind⟩ | ⟨c, rfl, across⟩
  · rcases List.append_eq_append_iff.mp behind with ⟨b, rfl, later⟩ | ⟨d, rfl, begins⟩
    · exact Or.inr ⟨b, rfl, later⟩
    · rcases List.append_eq_append_iff.mp begins with ⟨e, rfl, _⟩ | ⟨e, rfl, later⟩
      · exact absurd ⟨a, e, by simp⟩ clear.not_inside
      · obtain rfl := clear.behind rfl rfl
        exact Or.inr ⟨[], by simp, by simpa using later⟩
  · rcases List.append_eq_append_iff.mp across with ⟨e, rfl, _⟩ | ⟨e, rfl, reaches⟩
    · exact Or.inl ⟨e, rfl⟩
    · rcases List.append_eq_append_iff.mp reaches with ⟨f, rfl, _⟩ | ⟨f, rfl, _⟩
      · exact absurd ⟨c, f, by simp⟩ clear.not_around
      · obtain rfl := clear.ahead rfl rfl
        exact Or.inl ⟨[], by simp⟩

/-- No occurrence of a text begins in another, wherever the two stand side by side. -/
structure Unbegun (t new : Text) : Prop where
  /-- No end of the other one begins the text. -/
  behind : ∀ {u v w}, new = u ++ v → t = v ++ w → v = []
  not_inside : ¬ t <:+: new

/-- A text does not begin where its first character is missing. -/
theorem unbegun_of_not_mem {c : Char} {t new : Text} (foreign : c ∉ new) :
    Unbegun (c :: t) new where
  behind := by
    rintro u v w rfl begins
    rcases List.cons_eq_append_iff.mp begins with ⟨rfl, _⟩ | ⟨v, rfl, _⟩
    · rfl
    · exact absurd (by simp) foreign
  not_inside := fun inside => foreign (inside.subset List.mem_cons_self)

/-- What does not hold the last character of a text does not reach beyond it. -/
theorem unbegun_of_getLast? {c : Char} {t new : Text} (last : new.getLast? = some c)
    (foreign : c ∉ t) (absent : ¬ t <:+: new) : Unbegun t new where
  behind := by
    rintro u v w rfl rfl
    by_contra solid
    rw [List.getLast?_append_of_ne_nil u solid] at last
    exact foreign (List.mem_append_left w (List.mem_of_getLast? last))
  not_inside := absent

/-- Where a text does not begin, no longer one begins with it. -/
theorem Unbegun.append {t new : Text} (h : Unbegun t new) (r : Text) : Unbegun (t ++ r) new where
  behind := by
    intro u v w ends begins
    rcases List.append_eq_append_iff.mp begins with ⟨a, rfl, _⟩ | ⟨a, rfl, _⟩
    · exact absurd ⟨u, a, by rw [ends, List.append_assoc]⟩ h.not_inside
    · exact h.behind ends rfl
  not_inside inside := h.not_inside ((List.prefix_append t r).isInfix.trans inside)

theorem Clear.unbegun {t new : Text} (h : Clear t new) : Unbegun t new :=
  ⟨h.behind, h.not_inside⟩

end Text

namespace Cuts

variable {cuts : Cuts} {new t lead after : Text}

/-- A text that stands clear of the insertions stood in the text that was cut, behind the same
character or directly behind a match. -/
theorem standing_of_fill (clear : Text.Clear t new) (nonempty : ∀ span ∈ cuts.spans, span ≠ [])
    (whole : cuts.fill new = lead ++ (t ++ after)) :
    ∃ before behind, cuts.source = before ++ (t ++ behind) ∧
      (before.getLast? = lead.getLast? ∨
        ∃ span ∈ cuts.spans, before.getLast? = span.getLast?) := by
  induction cuts generalizing lead with
  | last gap => exact ⟨lead, after, whole, Or.inl rfl⟩
  | hit gap span rest ih =>
    obtain ⟨here, others⟩ := List.forall_mem_cons.mp nonempty
    rw [fill, List.append_assoc] at whole
    rcases clear.cases whole with ⟨tail, rfl⟩ | ⟨between, rfl, later⟩
    · exact ⟨lead, tail ++ (span ++ rest.source), by simp [source], Or.inl rfl⟩
    · obtain ⟨before, behind, stood, last⟩ := ih others later
      refine ⟨gap ++ (span ++ before), behind, by simp [source, stood], ?_⟩
      by_cases empty : before = []
      · subst empty
        rw [List.append_nil, List.getLast?_append_of_ne_nil _ here]
        exact Or.inr ⟨span, List.mem_cons_self, rfl⟩
      · rw [List.getLast?_append_of_ne_nil _ (List.append_ne_nil_of_right_ne_nil span empty),
          List.getLast?_append_of_ne_nil _ empty]
        rcases last with same | ⟨found, member, same⟩
        · have some_between : between ≠ [] := by
            rintro rfl
            exact empty (List.getLast?_eq_none_iff.mp same)
          rw [List.getLast?_append_of_ne_nil _
            (List.append_ne_nil_of_right_ne_nil new some_between),
            List.getLast?_append_of_ne_nil _ some_between]
          exact Or.inl same
        · exact Or.inr ⟨found, List.mem_cons_of_mem span member, same⟩

end Cuts

namespace Text

variable {lead new t before behind : Text}

/-- A text that is clear of what was inserted stood before where it stands now, and behind the same
character or behind the text that was replaced. -/
theorem standing_of_replace (nonempty : lead ≠ []) (clear : Clear t new) {s : Text}
    (whole : (replace lead new s).text = before ++ (t ++ behind)) :
    ∃ front after, s = front ++ (t ++ after) ∧
      (front.getLast? = before.getLast? ∨ front.getLast? = lead.getLast?) := by
  rw [replace_eq nonempty] at whole
  have spans : ∀ span ∈ ((Pattern.literal lead nonempty).cuts none s).spans, span = lead :=
    fun span member => Pattern.eq_of_mem_spans_literal nonempty member
  obtain ⟨front, after, stood, last⟩ :=
    Cuts.standing_of_fill clear (fun span member => spans span member ▸ nonempty) whole
  rw [Pattern.source_cuts] at stood
  refine ⟨front, after, stood, last.imp_right ?_⟩
  rintro ⟨span, member, same⟩
  rw [same, spans span member]

end Text

end ProtoPrep
