import ProtoPrep.Proofs.Text.Bytes
import ProtoPrep.Proofs.Text.Cuts

/-!
# The matches that are found

The matches of a text are the leftmost ones: each begins at the first place, behind the
match before it, where the pattern matches. This settles them. Told by places: a match
of the pattern is among them, or it begins inside one of them.
-/

namespace ProtoPrep

/-- A text as gaps and some of its places, in order. Which places count is given: those that are
taken do, and of the others none begins in a gap. -/
structure Cuts.Divides (counts : Extent → Prop) (t : Text) (cuts : Cuts) : Prop where
  source : cuts.source = t
  found : ∀ cut ∈ cuts.extents 0, counts cut
  covered : ∀ place, counts place →
    ∃ cut ∈ cuts.extents 0, cut.start ≤ place.start ∧ place.start < cut.stop

namespace Cuts

theorem append_source_hit (lead gap span : Text) (rest : Cuts) :
    lead ++ (hit gap span rest).source = lead ++ (gap ++ span) ++ rest.source := by
  simp [source]

theorem extents_hit (lead gap span : Text) (rest : Cuts) :
    (hit gap span rest).extents lead.byteSize =
      ⟨Text.byteSize (lead ++ gap), Text.byteSize (lead ++ (gap ++ span))⟩ ::
        rest.extents (Text.byteSize (lead ++ (gap ++ span))) := by
  simp only [extents, Text.byteSize_append, Nat.add_assoc]

end Cuts

namespace Pattern

/-- Gaps and matches behind the text `lead`: each match is the first one behind the match before
it. -/
inductive Leftmost (p : Pattern) : Text → Cuts → Prop
  | last {lead gap : Text}
      (free : ∀ front tail, gap = front ++ tail → p.at? (lead ++ front).getLast? tail = none) :
      Leftmost p lead (.last gap)
  | hit {lead gap span : Text} {rest : Cuts}
      (free : ∀ front tail, gap = front ++ tail → tail ≠ [] →
        p.at? (lead ++ front).getLast? (tail ++ (span ++ rest.source)) = none)
      (found : p.at? (lead ++ gap).getLast? (span ++ rest.source) = some (span, rest.source))
      (later : Leftmost p (lead ++ (gap ++ span)) rest) : Leftmost p lead (.hit gap span rest)

variable {p : Pattern} {lead t : Text} {cuts : Cuts}

theorem Leftmost.grow {c : Char} (unmatched : p.at? lead.getLast? (c :: cuts.source) = none)
    (h : p.Leftmost (lead ++ [c]) cuts) : p.Leftmost lead (cuts.grow c) := by
  cases h with
  | last free =>
    refine .last ?_
    intro front tail whole
    rcases List.cons_eq_append_iff.mp whole with ⟨rfl, rfl⟩ | ⟨front, rfl, inner⟩
    · simpa [Cuts.source] using unmatched
    · rw [List.append_cons]
      exact free front tail inner
  | hit free found later =>
    refine .hit ?_ ?_ ?_
    · intro front tail whole solid
      rcases List.cons_eq_append_iff.mp whole with ⟨rfl, rfl⟩ | ⟨front, rfl, inner⟩
      · simpa [Cuts.source] using unmatched
      · rw [List.append_cons]
        exact free front tail inner solid
    · rw [List.append_cons]
      exact found
    · rw [List.cons_append, List.append_cons]
      exact later

/-- The matches that are taken are the leftmost ones, by induction on the text with what was read
before general. -/
theorem leftmost_cuts (p : Pattern) {before : Option Char} (behind : lead.getLast? = before)
    (t : Text) : p.Leftmost lead (p.cuts before t) := by
  fun_induction cuts p before t generalizing lead with
  | case1 before =>
    refine .last ?_
    intro front tail whole
    obtain ⟨rfl, rfl⟩ := List.append_eq_nil_iff.mp whole.symm
    exact p.at?_nil _
  | case2 before c r span rest found ih =>
    refine .hit ?_ ?_ ?_
    · intro front tail whole solid
      exact absurd (List.append_eq_nil_iff.mp whole.symm).2 solid
    · rw [List.append_nil, source_cuts, p.append_eq found, behind]
      exact found
    · exact ih (List.getLast?_append_of_ne_nil lead (p.ne_nil found))
  | case3 before c r unmatched ih =>
    refine Leftmost.grow ?_ (ih (List.getLast?_concat))
    rwa [source_cuts, behind]

/-- A gap in which nothing matches reaches no further than to the first match. -/
theorem prefix_of_unmatched {gap other rest after : Text} {found : Text × Text}
    (free : ∀ front tail, gap = front ++ tail → tail ≠ [] →
      p.at? (lead ++ front).getLast? (tail ++ rest) = none)
    (same : gap ++ rest = other ++ after)
    (matched : p.at? (lead ++ other).getLast? after = some found) : gap <+: other := by
  rcases List.append_eq_append_iff.mp same with ⟨w, rfl, _⟩ | ⟨w, rfl, begins⟩
  · exact List.prefix_append gap w
  · by_cases nothing : w = []
    · simp [nothing]
    · rw [begins, free other w rfl nothing] at matched
      cases matched

/-- A text has no other leftmost matches than those that are found. -/
theorem Leftmost.unique {other : Cuts} (h : p.Leftmost lead cuts) (g : p.Leftmost lead other)
    (same : cuts.source = other.source) : cuts = other := by
  induction h generalizing other with
  | last free =>
    cases g with
    | last _ => exact congrArg Cuts.last same
    | hit _ found' _ =>
      rw [free _ _ (same.trans (List.append_assoc _ _ _))] at found'
      cases found'
  | @hit lead gap span rest free found later ih =>
    cases g with
    | last free' =>
      rw [free' _ _ (same.symm.trans (List.append_assoc _ _ _))] at found
      cases found
    | @hit _ gap' span' rest' free' found' later' =>
      rw [Cuts.source, Cuts.source, List.append_assoc, List.append_assoc] at same
      have shorter := prefix_of_unmatched free same found'
      have longer := prefix_of_unmatched free' same.symm found
      obtain rfl : gap = gap' := shorter.eq_of_length_le longer.length_le
      rw [List.append_cancel_left same, found'] at found
      obtain ⟨rfl, sources⟩ := Prod.mk.inj (Option.some.inj found)
      rw [ih later' sources.symm]

/-- A match of the pattern in a text. -/
def FoundAt (p : Pattern) (t : Text) (place : Extent) : Prop :=
  ∃ lead span after, t = lead ++ (span ++ after) ∧
    p.at? lead.getLast? (span ++ after) = some (span, after) ∧
    place = ⟨lead.byteSize, (lead ++ span).byteSize⟩

theorem offset_le_start {offset : Nat} {cut : Extent} (h : cut ∈ cuts.extents offset) :
    offset ≤ cut.start := by
  induction cuts generalizing offset with
  | last gap => cases h
  | hit gap span rest ih =>
    rcases List.mem_cons.mp h with rfl | later
    · exact Nat.le_add_right _ _
    · have behind := ih later
      omega

theorem gap_le_start {gap span : Text} {rest : Cuts} {offset : Nat} {cut : Extent}
    (h : cut ∈ (Cuts.hit gap span rest).extents offset) : offset + gap.byteSize ≤ cut.start := by
  rcases List.mem_cons.mp h with rfl | later
  · exact Nat.le_refl _
  · have behind := offset_le_start later
    omega

/-- Every place that is taken is a match in the whole text, and not only in what was left of it. -/
theorem Leftmost.foundAt (h : p.Leftmost lead cuts) {cut : Extent}
    (member : cut ∈ cuts.extents lead.byteSize) : p.FoundAt (lead ++ cuts.source) cut := by
  induction h with
  | last free => cases member
  | @hit lead gap span rest free found later ih =>
    rw [Cuts.extents_hit] at member
    rcases List.mem_cons.mp member with rfl | member
    · refine ⟨lead ++ gap, span, rest.source, by simp [Cuts.source], found, ?_⟩
      rw [List.append_assoc]
    · rw [Cuts.append_source_hit]
      exact ih member

/-- A match of the pattern behind `lead` begins inside one of the matches that are found. -/
theorem Leftmost.covers (h : p.Leftmost lead cuts) {place : Extent}
    (here : p.FoundAt (lead ++ cuts.source) place) (ahead : lead.byteSize ≤ place.start) :
    ∃ cut ∈ cuts.extents lead.byteSize, cut.start ≤ place.start ∧ place.start < cut.stop := by
  induction h with
  | @last lead gap free =>
    obtain ⟨front, found, after, whole, matched, rfl⟩ := here
    obtain ⟨between, rfl, rest⟩ := Text.exists_between whole ahead
    rw [free between _ rest] at matched
    cases matched
  | @hit lead gap span rest free found later ih =>
    rw [Cuts.extents_hit]
    by_cases behind : Text.byteSize (lead ++ (gap ++ span)) ≤ place.start
    · rw [Cuts.append_source_hit] at here
      obtain ⟨cut, member, inside⟩ := ih here behind
      exact ⟨cut, List.mem_cons_of_mem _ member, inside⟩
    · refine ⟨_, List.mem_cons_self, ?_, Nat.lt_of_not_le behind⟩
      -- Otherwise the match would begin in the gap.
      by_contra early
      obtain ⟨front, other, after, whole, matched, rfl⟩ := here
      obtain ⟨between, rfl, rest⟩ := Text.exists_between whole ahead
      simp only [Text.byteSize_append] at early
      rw [Cuts.source, List.append_assoc] at rest
      obtain ⟨tail, rfl, ends⟩ := Text.exists_between rest.symm (by omega)
      have solid : tail ≠ [] := by
        rintro rfl
        simp at early
      rw [ends, free between tail rfl solid] at matched
      cases matched

theorem divides_cuts (p : Pattern) (t : Text) : (p.cuts none t).Divides (p.FoundAt t) t := by
  have leftmost := leftmost_cuts p (List.getLast?_nil : ([] : Text).getLast? = none) t
  have source := p.source_cuts none t
  refine ⟨source, ?_, ?_⟩
  · intro cut member
    have here := leftmost.foundAt member
    rwa [List.nil_append, source] at here
  · intro place here
    refine leftmost.covers ?_ (Nat.zero_le _)
    rwa [List.nil_append, source]

/-- No match begins where no place begins. -/
theorem at?_eq_none_of_start {rest : Text} (whole : t = lead ++ rest)
    (elsewhere : ∀ place, p.FoundAt t place → place.start ≠ lead.byteSize) :
    p.at? lead.getLast? rest = none := by
  by_contra matched
  obtain ⟨⟨span, after⟩, here⟩ := Option.ne_none_iff_exists'.mp matched
  obtain rfl := p.append_eq here
  exact elsewhere _ ⟨lead, span, after, whole, here, rfl⟩ rfl

/-- A match is told by its place. -/
theorem at?_of_foundAt {span after : Text} (whole : t = lead ++ (span ++ after))
    (h : p.FoundAt t ⟨lead.byteSize, lead.byteSize + span.byteSize⟩) :
    p.at? lead.getLast? (span ++ after) = some (span, after) := by
  obtain ⟨front, other, rest, split, found, same⟩ := h
  obtain ⟨start, stop⟩ := Extent.mk.inj same
  rw [whole] at split
  obtain ⟨rfl, behind⟩ := Text.eq_of_byteSize_eq split start
  rw [Text.byteSize_append] at stop
  obtain ⟨rfl, rfl⟩ := Text.eq_of_byteSize_eq behind (by omega)
  exact found

/-- Matches that cover every match behind `lead` are the leftmost ones. -/
theorem leftmost_of_covered (whole : t = lead ++ cuts.source)
    (found : ∀ cut ∈ cuts.extents lead.byteSize, p.FoundAt t cut)
    (covered : ∀ place, p.FoundAt t place → lead.byteSize ≤ place.start →
      ∃ cut ∈ cuts.extents lead.byteSize, cut.start ≤ place.start ∧ place.start < cut.stop) :
    p.Leftmost lead cuts := by
  induction cuts generalizing lead with
  | last gap =>
    refine .last ?_
    rintro front tail rfl
    have split : t = lead ++ front ++ tail := by simp [whole, Cuts.source]
    refine at?_eq_none_of_start split ?_
    intro place here start
    have ahead : lead.byteSize ≤ place.start := by
      rw [start, Text.byteSize_append]
      omega
    obtain ⟨cut, member, _⟩ := covered place here ahead
    cases member
  | hit gap span rest ih =>
    have hit := Cuts.extents_hit lead gap span rest
    rw [hit] at found
    obtain ⟨first, others⟩ := List.forall_mem_cons.mp found
    refine .hit ?_ ?_ ?_
    · rintro front tail rfl solid
      have split : t = lead ++ front ++ (tail ++ (span ++ rest.source)) := by
        simp [whole, Cuts.source]
      refine at?_eq_none_of_start split ?_
      intro place here start
      rw [Text.byteSize_append] at start
      obtain ⟨cut, member, early, _⟩ := covered place here (by omega)
      have long := Text.byteSize_pos solid
      have behind := gap_le_start member
      rw [Text.byteSize_append] at behind
      omega
    · have split : t = lead ++ gap ++ (span ++ rest.source) := by simp [whole, Cuts.source]
      refine at?_of_foundAt split ?_
      rw [← Text.byteSize_append, List.append_assoc]
      exact first
    · refine ih (by rw [whole, Cuts.append_source_hit]) others ?_
      intro place here ahead
      have behind : lead.byteSize ≤ place.start := by
        rw [Text.byteSize_append] at ahead
        omega
      obtain ⟨cut, member, inside⟩ := covered place here behind
      rw [hit] at member
      rcases List.mem_cons.mp member with rfl | later
      · exact absurd ahead (Nat.not_le_of_lt inside.2)
      · exact ⟨cut, later, inside⟩

/-- There is one way to take places from left to right of which none begins in a gap. -/
theorem eq_cuts_of_divides (h : cuts.Divides (p.FoundAt t) t) : cuts = p.cuts none t := by
  have leftmost : p.Leftmost [] cuts :=
    leftmost_of_covered h.source.symm h.found fun place here _ => h.covered place here
  refine leftmost.unique (leftmost_cuts p List.getLast?_nil t) ?_
  rw [h.source, source_cuts]

end Pattern

end ProtoPrep
