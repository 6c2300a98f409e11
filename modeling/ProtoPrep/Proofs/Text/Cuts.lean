import Mathlib.Data.List.Basic
import ProtoPrep.Text.Pattern

/-!
# What a replacement keeps

A replacement keeps the gaps and exchanges the matches. So the characters of the
two texts can be counted against each other, a replacement by subsequences of the
matches leaves a subsequence, and no match anywhere is the same as nothing counted.
-/

namespace ProtoPrep

open scoped List

namespace Cuts

variable {cuts : Cuts} {new : Text}

theorem count_hit (gap span : Text) (rest : Cuts) :
    (hit gap span rest).count = rest.count + 1 := rfl

theorem fill_nil (cuts : Cuts) : cuts.fill [] = cuts.gaps.flatten := by
  induction cuts with
  | last gap => simp [fill, gaps]
  | hit gap span rest ih => simp [fill, gaps, ih]

theorem fill_eq_source (unmatched : cuts.count = 0) : cuts.fill new = cuts.source := by
  cases cuts with
  | last gap => rfl
  | hit gap span rest => cases unmatched

/-- Matches that lose characters leave a subsequence of the text. -/
theorem fill_sublist (shorter : ∀ span ∈ cuts.spans, new <+ span) :
    cuts.fill new <+ cuts.source := by
  induction cuts with
  | last gap => exact List.Sublist.refl gap
  | hit gap span rest ih =>
    have here : new <+ span := shorter span List.mem_cons_self
    have later := ih fun s hs => shorter s (List.mem_cons_of_mem span hs)
    exact ((List.Sublist.refl gap).append here).append later

/-- Every match gives way to one copy of the new text. `k` is what each of them loses. -/
theorem countP_fill {q : Char → Bool} {k : Nat}
    (loses : ∀ span ∈ cuts.spans, span.countP q = new.countP q + k) :
    (cuts.fill new).countP q + cuts.count * k = cuts.source.countP q := by
  induction cuts with
  | last gap => simp [fill, source, count, spans]
  | hit gap span rest ih =>
    have here := loses span List.mem_cons_self
    have later := ih fun s hs => loses s (List.mem_cons_of_mem span hs)
    simp only [fill, source, List.countP_append, count_hit, Nat.add_mul, Nat.one_mul]
    omega

end Cuts

namespace Pattern

variable (p : Pattern)

theorem at?_nil (before : Option Char) : p.at? before [] = none := by
  cases h : p.at? before [] with
  | none => rfl
  | some found =>
    have empty := List.append_eq_nil_iff.mp (p.append_eq h)
    exact absurd empty.1 (p.ne_nil h)

/-- A match stands in the text, and it is the match of its position. -/
theorem standing_of_mem_spans {before : Option Char} {t span : Text}
    (h : span ∈ (p.cuts before t).spans) :
    ∃ lead rest, t = lead ++ (span ++ rest) ∧
      p.at? (lead.getLast?.or before) (span ++ rest) = some (span, rest) := by
  fun_induction cuts p before t with
  | case1 => cases h
  | case2 before c r found rest at_ ih =>
    have whole := p.append_eq at_
    rcases List.mem_cons.mp h with rfl | later
    · exact ⟨[], rest, whole.symm, by rw [whole]; exact at_⟩
    · obtain ⟨lead, after, rfl, here⟩ := ih later
      refine ⟨found ++ lead, after, by rw [List.append_assoc, whole], ?_⟩
      rw [List.getLast?_append, Option.or_assoc]
      have solid : found.getLast? = found.getLast?.or before := by
        rw [Option.or_of_isSome (List.getLast?_isSome.mpr (p.ne_nil at_))]
      rwa [← solid]
  | case3 before c r _ ih =>
    obtain ⟨lead, after, rfl, here⟩ := ih (by simpa using h)
    refine ⟨c :: lead, after, rfl, ?_⟩
    cases lead <;> simpa [List.getLast?_cons] using here

/-- Each span was found by the pattern at the place where it stands. -/
theorem mem_spans_cuts {before : Option Char} {t span : Text}
    (h : span ∈ (p.cuts before t).spans) :
    ∃ previous here rest, p.at? previous here = some (span, rest) := by
  obtain ⟨lead, rest, _, found⟩ := p.standing_of_mem_spans h
  exact ⟨_, _, rest, found⟩

/-- Nothing is counted exactly if the pattern matches at no position. -/
theorem count_cuts_eq_zero_iff {before : Option Char} {t : Text} :
    (p.cuts before t).count = 0 ↔
      ∀ lead rest, t = lead ++ rest → p.at? (lead.getLast?.or before) rest = none := by
  fun_induction cuts p before t with
  | case1 before =>
    refine ⟨fun _ lead rest h => ?_, fun _ => rfl⟩
    obtain ⟨rfl, rfl⟩ := List.append_eq_nil_iff.mp h.symm
    exact p.at?_nil _
  | case2 before c r span rest found ih =>
    refine ⟨fun h => (Nat.succ_ne_zero _ h).elim, fun h => ?_⟩
    have unmatched := h [] (c :: r) rfl
    rw [List.getLast?_nil, Option.none_or, found] at unmatched
    cases unmatched
  | case3 before c r unmatched ih =>
    rw [Cuts.count_grow, ih]
    constructor
    · intro h lead rest whole
      rcases List.cons_eq_append_iff.mp whole with ⟨rfl, rfl⟩ | ⟨tail, rfl, rfl⟩
      · simpa using unmatched
      · have later := h tail rest rfl
        cases tail <;> simpa [List.getLast?_cons] using later
    · rintro h lead rest rfl
      have later := h (c :: lead) rest rfl
      cases lead <;> simpa [List.getLast?_cons] using later

/-- A recogniser of endings and its guard say together what matches. -/
theorem ofRest_at?_eq_some_iff {guard : Option Char → Bool} {rest? : Text → Option Text}
    {ending : ∀ {t rest}, rest? t = some rest → rest <:+ t ∧ rest.length < t.length}
    {before : Option Char} {t span rest : Text} :
    (ofRest guard rest? ending).at? before t = some (span, rest) ↔
      guard before = true ∧ rest? t = some rest ∧ span ++ rest = t := by
  constructor
  · intro h
    have whole := (ofRest guard rest? ending).append_eq h
    simp only [ofRest] at h
    split at h
    · rename_i open_
      obtain ⟨r, read, same⟩ := Option.map_eq_some_iff.mp h
      cases same
      exact ⟨open_, read, whole⟩
    · cases h
  · rintro ⟨open_, read, rfl⟩
    simp [ofRest, open_, read, Text.before]

theorem ofRest_at?_eq_none_iff {guard : Option Char → Bool} {rest? : Text → Option Text}
    {ending : ∀ {t rest}, rest? t = some rest → rest <:+ t ∧ rest.length < t.length}
    {before : Option Char} {t : Text} :
    (ofRest guard rest? ending).at? before t = none ↔ (guard before = true → rest? t = none) := by
  simp [ofRest]

variable {p} {new t : Text}

theorem text_replace_of_count_eq_zero (unmatched : (p.replace new t).count = 0) :
    (p.replace new t).text = t :=
  (Cuts.fill_eq_source unmatched).trans (p.source_cuts none t)

theorem replace_sublist (shorter : ∀ span ∈ (p.cuts none t).spans, new <+ span) :
    (p.replace new t).text <+ t := by
  simpa only [replace, source_cuts] using Cuts.fill_sublist shorter

/-- If every match loses as many characters of a kind, their number tells how many matches were
replaced. -/
theorem countP_replace {q : Char → Bool} {k : Nat}
    (loses : ∀ span ∈ (p.cuts none t).spans, span.countP q = new.countP q + k) :
    (p.replace new t).text.countP q + (p.replace new t).count * k = t.countP q := by
  simpa only [replace, source_cuts] using Cuts.countP_fill loses

end Pattern

end ProtoPrep
