import ProtoPrep.Proofs.Text.Cuts

/-!
# Replacing a given text

Replacing the occurrences of a given text changes nothing exactly if there is none.
A character that the given text does not hold divides the work: what stands before
it and what stands after it are replaced separately.
-/

namespace ProtoPrep

open scoped List

namespace Text

variable {lead new t : Text}

theorem after?_eq_none_iff : lead.after? t = none ↔ ¬ lead <+: t := by
  constructor
  · rintro unmatched ⟨rest, whole⟩
    rw [after?_eq_some_iff.mpr whole] at unmatched
    cases unmatched
  · intro differs
    cases h : lead.after? t with
    | none => rfl
    | some rest => exact absurd ⟨rest, after?_eq_some_iff.mp h⟩ differs

theorem after?_append_cons {c : Char} (apart : c ∉ lead) (s t : Text) :
    lead.after? (s ++ c :: t) = (lead.after? s).map (· ++ c :: t) := by
  induction lead generalizing s with
  | nil => rfl
  | cons d lead ih =>
    obtain ⟨other, apart⟩ := not_or.mp (mt List.mem_cons.mpr apart)
    cases s with
    | nil => simp [after?, Ne.symm other]
    | cons e s =>
      by_cases same : d = e
      · simpa [after?, same] using ih apart s
      · simp [after?, same]

end Text

namespace Pattern

variable {lead : Text} (nonempty : lead ≠ [])

theorem literal_at?_eq_none_iff {before : Option Char} {t : Text} :
    (literal lead nonempty).at? before t = none ↔ ¬ lead <+: t := by
  rw [← Text.after?_eq_none_iff]
  exact Option.map_eq_none_iff

theorem eq_of_mem_spans_literal {before : Option Char} {t span : Text}
    (h : span ∈ ((literal lead nonempty).cuts before t).spans) : span = lead := by
  obtain ⟨_, here, rest, found⟩ := mem_spans_cuts _ h
  obtain ⟨_, _, same⟩ := Option.map_eq_some_iff.mp found
  exact (Prod.mk.inj same).1.symm

/-- A given text is found wherever it stands. -/
theorem literal_cuts_before (before other : Option Char) (t : Text) :
    (literal lead nonempty).cuts before t = (literal lead nonempty).cuts other t := by
  cases t with
  | nil => simp only [cuts]
  | cons c r =>
    rw [cuts, cuts]
    rfl

theorem literal_cuts_append_cons {c : Char} (apart : c ∉ lead) (new : Text)
    (before : Option Char) (s t : Text) :
    let p := literal lead nonempty
    (p.cuts before (s ++ c :: t)).fill new =
        (p.cuts before s).fill new ++ c :: (p.cuts none t).fill new ∧
      (p.cuts before (s ++ c :: t)).count = (p.cuts before s).count + (p.cuts none t).count := by
  intro p
  have split (before : Option Char) (s : Text) :
      p.at? before (s ++ c :: t) =
        (p.at? before s).map fun found => (found.1, found.2 ++ c :: t) := by
    simp only [p, literal, Text.after?_append_cons apart, Option.map_map]
    rfl
  fun_induction cuts p before s with
  | case1 before =>
    have unmatched : p.at? before (c :: t) = none := by simpa [at?_nil] using split before []
    have rest := literal_cuts_before nonempty (some c) none t
    rw [List.nil_append, cuts]
    split
    · simp_all
    · simp [Cuts.fill, Cuts.count, Cuts.spans, p, rest]
  | case2 before d r span rest found ih =>
    have matched : p.at? before (d :: (r ++ c :: t)) = some (span, rest ++ c :: t) := by
      simpa [found] using split before (d :: r)
    rw [List.cons_append, cuts]
    split
    · simp_all [Cuts.fill, Cuts.count_hit]
      omega
    · simp_all
  | case3 before d r unmatched ih =>
    have unmatched' : p.at? before (d :: (r ++ c :: t)) = none := by
      simpa [unmatched] using split before (d :: r)
    rw [List.cons_append, cuts]
    split
    · simp_all
    · simp_all

end Pattern

namespace Text

variable {lead new t : Text}

theorem replace_eq (nonempty : lead ≠ []) (new t : Text) :
    replace lead new t = (Pattern.literal lead nonempty).replace new t :=
  dif_neg nonempty

theorem replace_empty (new t : Text) :
    replace [] new t = ⟨t.flatMap (fun c => new ++ [c]) ++ new, t.length + 1⟩ :=
  dif_pos rfl

theorem replace_nil (nonempty : lead ≠ []) (new : Text) : replace lead new [] = ⟨[], 0⟩ := by
  rw [replace_eq nonempty, Pattern.replace, Pattern.cuts]
  rfl

/-- A character at which the given text does not begin stays. -/
theorem replace_cons (nonempty : lead ≠ []) {c : Char} {r : Text} (absent : ¬ lead <+: c :: r)
    (new : Text) :
    replace lead new (c :: r) = ⟨c :: (replace lead new r).text, (replace lead new r).count⟩ := by
  have unmatched : (Pattern.literal lead nonempty).at? none (c :: r) = none :=
    (Pattern.literal_at?_eq_none_iff nonempty).mpr absent
  have behind := Pattern.literal_cuts_before nonempty (some c) none r
  rw [replace_eq nonempty, replace_eq nonempty, Pattern.replace, Pattern.cuts]
  split
  · rename_i matched
    rw [matched] at unmatched
    cases unmatched
  · rw [behind, Cuts.fill_grow, Cuts.count_grow]
    rfl

theorem replace_append (nonempty : lead ≠ []) (new r : Text) :
    replace lead new (lead ++ r) =
      ⟨new ++ (replace lead new r).text, (replace lead new r).count + 1⟩ := by
  have matched : (Pattern.literal lead nonempty).at? none (lead ++ r) = some (lead, r) := by
    simp [Pattern.literal, after?_eq_some_iff.mpr rfl]
  have behind := Pattern.literal_cuts_before nonempty lead.getLast? none r
  obtain ⟨c, lead, rfl⟩ := List.exists_cons_of_ne_nil nonempty
  rw [replace_eq nonempty, replace_eq nonempty, Pattern.replace, List.cons_append, Pattern.cuts]
  split
  · rename_i span rest found
    rw [List.cons_append, found] at matched
    cases matched
    rw [behind, Cuts.fill, Cuts.count_hit]
    simp [Pattern.replace]
  · rename_i unmatched
    rw [List.cons_append, unmatched] at matched
    cases matched

/-- A text is read in steps: the given text where it stands, or else one character. -/
theorem replace_induction (nonempty : lead ≠ []) {motive : Text → Prop} (nil : motive [])
    (found : ∀ r, motive r → motive (lead ++ r))
    (other : ∀ c r, ¬ lead <+: c :: r → motive r → motive (c :: r)) (t : Text) : motive t := by
  induction size : t.length using Nat.strongRecOn generalizing t with
  | ind n ih =>
    have long := List.length_pos_iff.mpr nonempty
    by_cases here : lead <+: t
    · obtain ⟨r, rfl⟩ := here
      rw [List.length_append] at size
      exact found r (ih r.length (by omega) r rfl)
    · cases t with
      | nil => exact nil
      | cons c r =>
        rw [List.length_cons] at size
        exact other c r here (ih r.length (by omega) r rfl)

/-- A search from left to right misses no occurrence altogether. -/
theorem count_replace_eq_zero_iff (nonempty : lead ≠ []) (new t : Text) :
    (replace lead new t).count = 0 ↔ ¬ lead <:+: t := by
  rw [replace_eq nonempty, Pattern.replace, Pattern.count_cuts_eq_zero_iff]
  simp only [Pattern.literal_at?_eq_none_iff]
  constructor
  · rintro unmatched ⟨before, after, whole⟩
    exact unmatched before (lead ++ after) (by simp [← whole]) ⟨after, rfl⟩
  · rintro unmatched before after rfl ⟨rest, rfl⟩
    exact unmatched ⟨before, rest, by simp⟩

theorem text_replace_of_count_eq_zero (unmatched : (replace lead new t).count = 0) :
    (replace lead new t).text = t := by
  by_cases nonempty : lead = []
  · simp [replace, nonempty] at unmatched
  · rw [replace_eq nonempty] at unmatched ⊢
    exact Pattern.text_replace_of_count_eq_zero unmatched

theorem replace_sublist (nonempty : lead ≠ []) (shorter : new <+ lead) :
    (replace lead new t).text <+ t := by
  rw [replace_eq nonempty]
  apply Pattern.replace_sublist
  intro span h
  rwa [Pattern.eq_of_mem_spans_literal nonempty h]

theorem countP_replace (nonempty : lead ≠ []) {q : Char → Bool} {k : Nat}
    (loses : lead.countP q = new.countP q + k) :
    (replace lead new t).text.countP q + (replace lead new t).count * k = t.countP q := by
  rw [replace_eq nonempty]
  apply Pattern.countP_replace
  intro span h
  rwa [Pattern.eq_of_mem_spans_literal nonempty h]

/-- Both sides of a character that the text does not hold are worked on by themselves. -/
theorem replace_append_cons (nonempty : lead ≠ []) {c : Char} (apart : c ∉ lead) (new s t : Text) :
    replace lead new (s ++ c :: t) =
      ⟨(replace lead new s).text ++ c :: (replace lead new t).text,
        (replace lead new s).count + (replace lead new t).count⟩ := by
  obtain ⟨filled, counted⟩ := Pattern.literal_cuts_append_cons nonempty apart new none s t
  simp only [replace_eq nonempty, Pattern.replace, filled, counted]

/-- No occurrence stands across a character that it does not hold. -/
theorem infix_append_cons_iff (nonempty : lead ≠ []) {c : Char} (apart : c ∉ lead) {s t : Text} :
    lead <:+: s ++ c :: t ↔ lead <:+: s ∨ lead <:+: t := by
  have counted := congrArg Edit.count (replace_append_cons nonempty apart [] s t)
  rw [← not_iff_not, not_or, ← count_replace_eq_zero_iff nonempty [],
    ← count_replace_eq_zero_iff nonempty [], ← count_replace_eq_zero_iff nonempty [], counted]
  exact Nat.add_eq_zero_iff

end Text

end ProtoPrep
