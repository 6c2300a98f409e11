import Mathlib.Data.List.Flatten
import ProtoPrep.Proofs.Schema.OptionTrigger
import ProtoPrep.Proofs.Schema.OptionValue
import ProtoPrep.Proofs.Text.Literal
import ProtoPrep.Schema.HttpOption

/-!
# Pieces and the beginnings of options

`Divides` says what the division of a text into pieces is. Every place of the text
where an option begins is then either a piece that stays or inside a piece that is
cut out: two beginnings never overlap, and none reaches over the end of a value,
which is a brace or a semicolon.
-/

namespace ProtoPrep

open scoped List

namespace IsTrigger

variable {trigger : Text} {option : Text}

theorem exists_keyword (h : IsTrigger option trigger) : ∃ rest, trigger = 'o' :: 'p' :: rest := by
  cases h with
  | joined => exact ⟨_, rfl⟩
  | spaced _ => exact ⟨_, rfl⟩

theorem getLast?_eq (h : IsTrigger option trigger) : trigger.getLast? = some ')' := by
  cases h with
  | joined => rw [List.getLast?_concat]
  | spaced _ => rw [List.getLast?_concat]

end IsTrigger

namespace HttpOption

/-- The first two characters of the keyword do not come again. -/
theorem not_op_infix {trigger : Text} (h : IsTrigger name trigger) :
    ¬ ['o', 'p'] <:+: trigger.tail := by
  have named : ¬ ['o', 'p'] <:+: '(' :: name ++ [')'] := by
    rw [← Text.occursIn_iff]
    decide
  have keyword : ¬ ['o', 'p'] <:+: "ption".toList := by
    rw [← Text.occursIn_iff]
    decide
  cases h with
  | joined =>
    rw [← Text.occursIn_iff]
    decide
  | @spaced c blank =>
    have apart : c ∉ ['o', 'p'] := by
      intro member
      simp only [List.mem_cons, List.not_mem_nil, or_false] at member
      rcases member with rfl | rfl <;> exact absurd blank (by decide)
    intro found
    change ['o', 'p'] <:+: "ption".toList ++ c :: ('(' :: name ++ [')']) at found
    rcases (Text.infix_append_cons_iff (by simp) apart).mp found with early | late
    · exact keyword early
    · exact named late

variable {t : Text} {ps : List Piece}

theorem pieces_cons {c : Char} (unmatched : OptionTrigger.rest? name (c :: t) = none) :
    pieces (c :: t) = .plain c :: pieces t := by
  rw [pieces]
  split
  · rfl
  · rename_i found
    rw [unmatched] at found
    cases found

/-- At the beginning of an option the value decides. -/
theorem pieces_trigger {trigger : Text} (written : IsTrigger name trigger) (value : Text) :
    pieces (trigger ++ value) = match OptionValue.rest? value with
      | none => .unterminated trigger :: pieces value
      | some rest => .option (Text.before (trigger ++ value) rest) :: pieces rest := by
  have found := OptionTrigger.rest?_append written value
  have cut := Text.before_self_append trigger value
  obtain ⟨keyword, rfl⟩ := written.exists_keyword
  rw [List.cons_append] at found cut
  rw [List.cons_append, pieces]
  split
  · rename_i unmatched
    rw [found] at unmatched
    cases unmatched
  · rename_i other same
    obtain rfl := Option.some.inj (found.symm.trans same)
    split
    · rename_i endless
      rw [endless, cut]
    · rename_i ends
      rw [ends]

/-- The pieces of a text, one rule for each kind of piece. -/
inductive Divides : Text → List Piece → Prop where
  | done : Divides [] []
  | plain {c : Char} {r : Text} {ps : List Piece}
      (unmatched : ∀ trigger rest, IsTrigger name trigger → trigger ++ rest ≠ c :: r)
      (later : Divides r ps) : Divides (c :: r) (.plain c :: ps)
  | unterminated {trigger value : Text} {ps : List Piece} (written : IsTrigger name trigger)
      (endless : OptionValue.rest? value = none) (later : Divides value ps) :
      Divides (trigger ++ value) (.unterminated trigger :: ps)
  | option {trigger value rest : Text} {ps : List Piece} (written : IsTrigger name trigger)
      (ends : OptionValue.rest? (value ++ rest) = some rest) (later : Divides rest ps) :
      Divides (trigger ++ (value ++ rest)) (.option (trigger ++ value) :: ps)

/-- The pieces divide the text as the search from left to right does. -/
theorem divides_pieces (t : Text) : Divides t (pieces t) := by
  fun_induction pieces t with
  | case1 => exact .done
  | case2 c r unmatched ih => exact .plain (OptionTrigger.rest?_eq_none_iff.mp unmatched) ih
  | case3 c r value found endless ih =>
    obtain ⟨trigger, written, whole⟩ := OptionTrigger.rest?_eq_some_iff.mp found
    rw [← whole, Text.before_self_append]
    exact .unterminated written endless ih
  | case4 c r value found rest ends ih =>
    obtain ⟨trigger, written, whole⟩ := OptionTrigger.rest?_eq_some_iff.mp found
    obtain ⟨span, rfl⟩ := (OptionValue.rest?_ending ends).1
    have cut := Text.before_self_append (trigger ++ span) rest
    rw [List.append_assoc] at cut
    rw [← whole, cut]
    exact .option written ends ih

namespace Divides

theorem flatMap_source (h : Divides t ps) : ps.flatMap Piece.source = t := by
  induction h with
  | done => rfl
  | plain _ _ ih => simp [Piece.source, ih]
  | unterminated _ _ _ ih => simp [Piece.source, ih]
  | option _ _ _ ih => simp [Piece.source, ih]

/-- The pieces behind some of the pieces are those of the text behind them. -/
theorem behind {earlier later : List Piece} (h : Divides t (earlier ++ later)) :
    Divides (later.flatMap Piece.source) later := by
  induction earlier generalizing t with
  | nil => exact h.flatMap_source ▸ h
  | cons piece earlier ih =>
    rw [List.cons_append] at h
    cases h with
    | plain _ rest => exact ih rest
    | unterminated _ _ rest => exact ih rest
    | option _ _ rest => exact ih rest

theorem unterminated_behind {earlier later : List Piece} {trigger : Text}
    (h : Divides t (earlier ++ .unterminated trigger :: later)) :
    IsTrigger name trigger ∧ OptionValue.rest? (later.flatMap Piece.source) = none := by
  have here := h.behind
  rw [List.flatMap_cons, Piece.source] at here
  generalize whole : trigger ++ later.flatMap Piece.source = s at here
  cases here with
  | unterminated written endless rest =>
    rw [rest.flatMap_source]
    exact ⟨written, endless⟩

/-- An option is cut out with the value that ends where the text behind it begins. -/
theorem option_behind {earlier later : List Piece} {span : Text}
    (h : Divides t (earlier ++ .option span :: later)) :
    ∃ trigger value, span = trigger ++ value ∧ IsTrigger name trigger ∧
      OptionValue.rest? (value ++ later.flatMap Piece.source) =
        some (later.flatMap Piece.source) := by
  have here := h.behind
  rw [List.flatMap_cons, Piece.source] at here
  generalize whole : span ++ later.flatMap Piece.source = s at here
  cases here with
  | option written ends rest =>
    rw [rest.flatMap_source]
    exact ⟨_, _, rfl, written, ends⟩

end Divides

/-- Where another beginning stands in a text that begins with one: they do not overlap. -/
theorem behind_trigger {trigger other rest lead after : Text} (h : IsTrigger name trigger)
    (g : IsTrigger name other) (whole : trigger ++ rest = lead ++ (other ++ after)) :
    lead = [] ∨ ∃ gap, lead = trigger ++ gap ∧ rest = gap ++ (other ++ after) := by
  rcases List.append_eq_append_iff.mp whole with behind | ⟨tail, cut, same⟩
  · exact Or.inr behind
  by_cases first : lead = []
  · exact Or.inl first
  obtain ⟨keyword, begins⟩ := g.exists_keyword
  cases tail with
  | nil => exact Or.inr ⟨[], by simpa using cut.symm, by simpa using same.symm⟩
  | cons c tail =>
    -- The second beginning would put `op` behind the first character, or `o` at the end.
    exfalso
    obtain ⟨d, lead, rfl⟩ := List.exists_cons_of_ne_nil first
    subst begins
    injection same with c_eq rest_eq
    subst c_eq
    cases tail with
    | nil =>
      have last := h.getLast?_eq
      rw [cut, List.getLast?_concat] at last
      cases last
    | cons e tail =>
      injection rest_eq with e_eq
      subst e_eq
      refine not_op_infix h ⟨lead, tail, ?_⟩
      simp [cut]

/-- A beginning does not reach over the end of a value. -/
theorem not_mem_of_ends {trigger value rest : Text} (h : IsTrigger name trigger)
    (ends : OptionValue.rest? (value ++ rest) = some rest) :
    ∃ body c, value = body ++ [c] ∧ c ∉ trigger := by
  obtain ⟨span, closes, same⟩ := OptionValue.closes_of_rest? ends
  obtain ⟨body, c, split, last⟩ := closes.exists_last
  refine ⟨body, c, List.append_cancel_right (same.symm.trans (split ▸ rfl)), fun member => ?_⟩
  rcases h.mem_or_isBlank member with known | blank
  · rcases last with rfl | rfl <;> revert known <;> decide
  · rcases last with rfl | rfl <;> revert blank <;> decide

/-- Where a beginning lies among the pieces: it stays as a piece of its own, or it is cut out
with the option it belongs to. -/
inductive Placed (ps : List Piece) (lead trigger after : Text) : Prop where
  | stays (earlier later : List Piece) (split : ps = earlier ++ .unterminated trigger :: later)
      (before : lead = earlier.flatMap Piece.source)
      (behind : after = later.flatMap Piece.source)
  | cut (earlier later : List Piece) (inner tail : Text)
      (split : ps = earlier ++ .option (inner ++ (trigger ++ tail)) :: later)
      (before : lead = earlier.flatMap Piece.source ++ inner)
      (behind : after = tail ++ later.flatMap Piece.source)

theorem Placed.cons {lead trigger after : Text} (piece : Piece)
    (h : Placed ps lead trigger after) :
    Placed (piece :: ps) (piece.source ++ lead) trigger after := by
  cases h with
  | stays earlier later split before behind =>
    exact .stays (piece :: earlier) later (by rw [split]; rfl) (by rw [before]; rfl) behind
  | cut earlier later inner tail split before behind =>
    exact .cut (piece :: earlier) later inner tail (by rw [split]; rfl) (by rw [before]; simp)
      behind

/-- By induction on the division. A beginning inside a piece that stays would overlap its trigger,
and one across the end of an option would hold a brace or a semicolon. -/
theorem Divides.placed (h : Divides t ps) {lead trigger after : Text}
    (written : IsTrigger name trigger) (whole : t = lead ++ (trigger ++ after)) :
    Placed ps lead trigger after := by
  induction h generalizing lead with
  | done =>
    obtain ⟨_, rfl⟩ := written.exists_keyword
    cases lead <;> cases whole
  | @plain c r ps unmatched later ih =>
    cases lead with
    | nil => exact absurd whole.symm (unmatched trigger after written)
    | cons d lead =>
      injection whole with same whole
      subst same
      exact (ih whole).cons (.plain c)
  | @unterminated first value ps begins endless later ih =>
    rcases behind_trigger begins written whole with rfl | ⟨gap, rfl, rest⟩
    · obtain ⟨rfl, rfl⟩ := begins.eq_of_append_eq written whole
      exact .stays [] ps rfl rfl later.flatMap_source.symm
    · exact (ih rest).cons (.unterminated first)
  | @option first value rest ps begins ends later ih =>
    rcases behind_trigger begins written whole with rfl | ⟨gap, rfl, inside⟩
    · obtain ⟨rfl, rfl⟩ := begins.eq_of_append_eq written whole
      exact .cut [] ps [] value rfl rfl (by rw [later.flatMap_source])
    rcases List.append_eq_append_iff.mp inside with ⟨gap, rfl, beyond⟩ | ⟨part, rfl, reaches⟩
    · rw [← List.append_assoc]
      exact (ih beyond).cons (.option (first ++ value))
    rcases List.append_eq_append_iff.mp reaches with ⟨tail, rfl, rfl⟩ | ⟨reaching, cut, beyond⟩
    · exact .cut [] ps (first ++ gap) tail (by simp) rfl (by rw [later.flatMap_source])
    rcases List.eq_nil_or_concat part with rfl | ⟨part, c, rfl⟩
    · have behind : rest = [] ++ (trigger ++ after) := by rw [beyond, cut]; rfl
      simpa [Piece.source] using (ih behind).cons (.option (first ++ gap))
    · -- The last character of the value would belong to the second beginning.
      obtain ⟨body, d, split, foreign⟩ := not_mem_of_ends written ends
      rw [List.concat_eq_append, ← List.append_assoc] at split
      obtain rfl : c = d := by simpa using (List.append_inj' split rfl).2
      exact absurd (by simp [cut]) foreign

theorem strip_sublist (t : Text) : strip t <+ t := by
  have kept : ∀ piece ∈ pieces t, piece.kept <+ piece.source := by
    intro piece _
    cases piece with
    | plain c => exact List.Sublist.refl _
    | unterminated trigger => exact List.Sublist.refl _
    | option span => exact List.nil_sublist _
  simpa only [strip, flatMap_source_pieces] using List.Sublist.flatMap_right (pieces t) kept

/-- Each option that is cut out takes a character at least. -/
theorem Divides.length_kept (h : Divides t ps) :
    (ps.flatMap Piece.kept).length + ps.countP Piece.isOption ≤ t.length := by
  induction h with
  | done => exact Nat.le_refl _
  | plain _ _ ih => simpa [Piece.kept, Piece.isOption, Nat.add_right_comm] using ih
  | unterminated _ _ _ ih => simpa [Piece.kept, Piece.isOption, Nat.add_assoc] using ih
  | option written _ _ ih =>
    obtain ⟨_, rfl⟩ := written.exists_keyword
    simp only [List.flatMap_cons, Piece.kept, List.nil_append, List.countP_cons, Piece.isOption,
      if_true, List.length_append, List.length_cons]
    omega

theorem strip_length_le (t : Text) : (strip t).length + count t ≤ t.length :=
  (divides_pieces t).length_kept

theorem strip_of_count_eq_zero (none_cut : count t = 0) : strip t = t := by
  have kept : ∀ piece ∈ pieces t, piece.kept = piece.source := by
    intro piece member
    cases piece with
    | plain c => rfl
    | unterminated trigger => rfl
    | option span => exact absurd rfl (List.countP_eq_zero.mp none_cut _ member)
  rw [strip, List.flatMap_congr kept, flatMap_source_pieces]

/-- Nothing is cut out exactly if no beginning has a value that ends. -/
theorem count_eq_zero_iff :
    count t = 0 ↔ ∀ lead trigger value, IsTrigger name trigger →
      t = lead ++ (trigger ++ value) → OptionValue.rest? value = none := by
  constructor
  · intro none_cut lead trigger value written whole
    cases (divides_pieces t).placed written whole with
    | stays earlier later split before behind =>
      have endless := (split ▸ divides_pieces t).unterminated_behind
      rw [behind]
      exact endless.2
    | cut earlier later inner tail split _ _ =>
      have member : Piece.option (inner ++ (trigger ++ tail)) ∈ pieces t := by simp [split]
      exact absurd rfl (List.countP_eq_zero.mp none_cut _ member)
  · intro endless
    by_contra some_cut
    obtain ⟨piece, member, cut⟩ := List.countP_pos_iff.mp (Nat.pos_of_ne_zero some_cut)
    cases piece with
    | plain c => cases cut
    | unterminated trigger => cases cut
    | option span =>
      obtain ⟨earlier, later, split⟩ := List.append_of_mem member
      obtain ⟨trigger, value, rfl, written, ends⟩ := (split ▸ divides_pieces t).option_behind
      have whole := flatMap_source_pieces t
      rw [split] at whole
      have unread := endless (earlier.flatMap Piece.source) trigger
        (value ++ later.flatMap Piece.source) written (by simp [← whole, Piece.source])
      rw [ends] at unread
      cases unread

end HttpOption

end ProtoPrep
