import ProtoPrep.Proofs.Schema.OptionCursors

/-!
# Texts put together

The removal of options works on two texts for itself, one behind the other, if every
option of the first one ends there and no beginning of an option stands across the
border. The second text must not begin with a semicolon either: the value before it
would take that along.
-/

namespace ProtoPrep.HttpOption

variable {a b t : Text} {ps : List Piece}

/-- The beginning of an option stands across the border of two texts. -/
def Straddles (a b : Text) : Prop :=
  ∃ lead u v after, IsTrigger name (u ++ v) ∧ u ≠ [] ∧ v ≠ [] ∧ a = lead ++ u ∧ b = v ++ after

theorem Straddles.append (h : Straddles a b) (s : Text) : Straddles (s ++ a) b := by
  obtain ⟨lead, u, v, after, written, left, right, rfl, rfl⟩ := h
  exact ⟨s ++ lead, u, v, after, written, left, right, (List.append_assoc s lead u).symm, rfl⟩

/-- A beginning across the border would neither end before it nor start behind it. -/
theorem not_straddles (whole : ∀ place, BeginsAt (a ++ b) place →
    place.stop ≤ a.byteSize ∨ a.byteSize ≤ place.start) : ¬ Straddles a b := by
  rintro ⟨lead, u, v, after, written, left, right, rfl, rfl⟩
  have begins : BeginsAt (lead ++ u ++ (v ++ after))
      ⟨Text.byteSize lead, Text.byteSize (lead ++ (u ++ v))⟩ :=
    ⟨lead, u ++ v, after, written, by simp, rfl⟩
  have apart := whole _ begins
  have left_size := Text.byteSize_pos left
  have right_size := Text.byteSize_pos right
  simp only [Text.byteSize_append] at apart
  omega

/-- A text may be followed by any other if it ends in a character that no beginning of an option
holds. -/
theorem BeginsAt.apart_of_last {c : Char} (last : a.getLast? = some c)
    (foreign : c ∉ "option".toList ++ '(' :: name ++ [')']) (solid : isBlank c = false)
    {place : Extent} (h : BeginsAt (a ++ b) place) :
    place.stop ≤ a.byteSize ∨ a.byteSize ≤ place.start := by
  obtain ⟨lead, trigger, after, written, whole, rfl⟩ := h
  rcases List.append_eq_append_iff.mp whole with ⟨gap, rfl, _⟩ | ⟨u, rfl, across⟩
  · right
    simp only [Text.byteSize_append]
    omega
  rcases List.append_eq_append_iff.mp across with ⟨v, rfl, _⟩ | ⟨v, rfl, _⟩
  · left
    simp only [Text.byteSize_append]
    omega
  · by_cases nothing : u = []
    · right
      simp [nothing]
    · rw [List.getLast?_append_of_ne_nil _ nothing] at last
      have member : c ∈ u ++ v := List.mem_append_left v (List.mem_of_getLast? last)
      rcases written.mem_or_isBlank member with known | blank
      · exact absurd known foreign
      · rw [solid] at blank
        cases blank

/-- Behind a text whose options all end, the pieces are those of the text that follows. -/
theorem Divides.pieces_append (h : Divides a ps) (ended : ∀ trigger, .unterminated trigger ∉ ps)
    (whole : ¬ Straddles a b) (apart : b.head? ≠ some ';') :
    pieces (a ++ b) = ps ++ pieces b := by
  induction h with
  | done => rfl
  | @plain c r ps unmatched later ih =>
    have absent : OptionTrigger.rest? name (c :: (r ++ b)) = none := by
      rw [OptionTrigger.rest?_eq_none_iff]
      intro trigger rest written same
      rw [← List.cons_append] at same
      rcases List.append_eq_append_iff.mp same with ⟨u, inside, _⟩ | ⟨v, across, begins⟩
      · exact unmatched trigger u written inside.symm
      by_cases nothing : v = []
      · subst nothing
        rw [List.append_nil] at across
        exact unmatched trigger [] written (by rw [across, List.append_nil])
      · rw [across] at written
        exact whole ⟨[], c :: r, v, rest, written, List.cons_ne_nil c r, nothing, rfl, begins⟩
    have behind : ¬ Straddles r b := fun across => whole (across.append [c])
    have ended' : ∀ trigger, .unterminated trigger ∉ ps :=
      fun trigger member => ended trigger (List.mem_cons_of_mem _ member)
    rw [List.cons_append, pieces_cons absent, ih ended' behind, List.cons_append]
  | @unterminated trigger => exact absurd List.mem_cons_self (ended trigger)
  | @option trigger value rest ps written ends later ih =>
    have behind : ¬ Straddles rest b := by
      intro across
      have further := across.append (trigger ++ value)
      rw [List.append_assoc] at further
      exact whole further
    have ended' : ∀ trigger, .unterminated trigger ∉ ps :=
      fun trigger member => ended trigger (List.mem_cons_of_mem _ member)
    have cut := Text.before_self_append (trigger ++ value) (rest ++ b)
    simp only [List.append_assoc] at cut ⊢
    have ends' := OptionValue.rest?_append apart ends
    rw [List.append_assoc] at ends'
    rw [pieces_trigger written, ends']
    simp only [cut, ih ended' behind, List.cons_append]

/-- Every beginning of an option that the search comes to has a value that ends. -/
def OptionsEnd (t : Text) : Prop :=
  ∀ s ahead found, Reaches t s → t.fromByte? s.search = some ahead →
    next? s.search ahead = some found → ∃ stop, valueEnd? t found.stop = some (some stop)

/-- A turn that finds an end adds no warning. -/
theorem OptionsEnd.warned (ended : OptionsEnd t) {s : Cursors} (run : Reaches t s) :
    s.warned = [] := by
  induction run with
  | refl => rfl
  | @tail s next before step ih =>
    obtain ⟨ahead, here, step⟩ := Option.bind_eq_some_iff.mp step
    cases nearest : next? s.search ahead with
    | none =>
      rw [nearest] at step
      obtain ⟨_, _, same⟩ := Option.map_eq_some_iff.mp step
      cases same
    | some found =>
      rw [nearest] at step
      obtain ⟨stop, ends⟩ := ended s ahead found before here nearest
      obtain ⟨stop', ends', step⟩ := Option.bind_eq_some_iff.mp step
      rw [ends] at ends'
      cases ends'
      obtain ⟨gap, _, same⟩ := Option.map_eq_some_iff.mp step
      cases same
      exact ih

/-- Every option that is searched ends exactly if the log has no warning. -/
theorem optionsEnd_iff : OptionsEnd t ↔ unterminatedAt 0 (pieces t) = [] := by
  constructor
  · intro ended
    obtain ⟨last, run, _, _, warned⟩ := Reaches.finishes (t := t) .refl
    rw [← warned]
    exact ended.warned run
  · intro quiet s ahead found run here nearest
    obtain ⟨lead, gap, ahead', ps, held⟩ := run.held
    obtain rfl : ahead' = ahead := Option.some.inj (held.fromByte?_search.symm.trans here)
    have next := held.divided.ahead s.search
    rw [nearest] at next
    cases next with
    | endless gone written endless later =>
      have warned := held.warned
      rw [quiet, unterminatedAt_gap, unterminatedAt] at warned
      exact absurd (List.append_eq_nil_iff.mp warned).2 (List.cons_ne_nil _ _)
    | option gone written ends later =>
      have stop := held.valueEnd?_behind
      rw [ends, Option.map_some] at stop
      exact ⟨_, stop⟩

theorem OptionsEnd.not_mem_pieces (ended : OptionsEnd t) (trigger : Text) :
    .unterminated trigger ∉ pieces t := by
  intro member
  obtain ⟨earlier, later, split⟩ := List.append_of_mem member
  have warned : 0 + size earlier ∈ unterminatedAt 0 (pieces t) :=
    mem_unterminatedAt_iff.mpr ⟨trigger, mem_placed_iff.mpr ⟨earlier, later, split, rfl⟩⟩
  rw [optionsEnd_iff.mp ended] at warned
  cases warned

theorem filterMap_cutAt_add (offset n : Nat) (ps : List Piece) :
    (placed (offset + n) ps).filterMap cutAt =
      ((placed offset ps).filterMap cutAt).map (Extent.shift n) := by
  rw [placed_add, List.filterMap_map, List.map_filterMap]
  apply List.filterMap_congr
  rintro ⟨m, piece⟩ _
  cases piece with
  | option span => simp [cutAt, Extent.shift, Nat.add_right_comm]
  | _ => rfl

/-- What is cut out of two texts put together is what is cut out of each of them. -/
theorem strip_append (ended : OptionsEnd a) (apart : b.head? ≠ some ';')
    (whole : ∀ place, BeginsAt (a ++ b) place →
      place.stop ≤ a.byteSize ∨ a.byteSize ≤ place.start) :
    strip (a ++ b) = strip a ++ strip b ∧ count (a ++ b) = count a + count b ∧
      cutExtents (a ++ b) = cutExtents a ++ (cutExtents b).map (Extent.shift a.byteSize) := by
  have split : pieces (a ++ b) = pieces a ++ pieces b :=
    (divides_pieces a).pieces_append ended.not_mem_pieces (not_straddles whole) apart
  refine ⟨?_, ?_, ?_⟩
  · rw [strip, split, List.flatMap_append, strip, strip]
  · rw [count, split, List.countP_append, count, count]
  · have length : size (pieces a) = a.byteSize := by rw [size, flatMap_source_pieces]
    rw [cutExtents_eq, split, placed_append, List.filterMap_append, length, filterMap_cutAt_add,
      cutExtents_eq, cutExtents_eq]

/-- Two options, the first of them with its semicolon at the border. -/
theorem strip_append_of_semicolon :
    let a : Text := "option (google.api.http) = \x7b get: \"/a\" \x7d;".toList
    let b : Text := "\noption(google.api.http).get = \"/b\";".toList
    OptionsEnd a ∧ b.head? ≠ some ';' ∧
      (∀ place, BeginsAt (a ++ b) place →
        place.stop ≤ a.byteSize ∨ a.byteSize ≤ place.start) ∧
      strip (a ++ b) = strip a ++ strip b ∧ count (a ++ b) = count a + count b ∧
      cutExtents (a ++ b) = cutExtents a ++ (cutExtents b).map (Extent.shift a.byteSize) := by
  intro a b
  have ended : OptionsEnd a := optionsEnd_iff.mpr (by decide +kernel)
  have apart : b.head? ≠ some ';' := by decide +kernel
  have last : a.getLast? = some ';' := by decide +kernel
  have whole : ∀ place, BeginsAt (a ++ b) place →
      place.stop ≤ a.byteSize ∨ a.byteSize ≤ place.start :=
    fun place begins => begins.apart_of_last last (by decide) (by decide)
  exact ⟨ended, apart, whole, strip_append ended apart whole⟩

end ProtoPrep.HttpOption
