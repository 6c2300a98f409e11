import Mathlib.Logic.Relation
import ProtoPrep.Proofs.Schema.OptionExtents

/-!
# The removal as a loop

The options are cut out in one pass with two cursors: what is before the first one
is written or cut out, and the second one is where the search goes on. They move
together behind an option that is cut out. Behind a beginning without an end only
the second one moves. The gap between the two is what a turn still owes the output.
-/

namespace ProtoPrep.HttpOption

variable {t : Text} {ps : List Piece} {offset : Nat}

/-- The bytes of the first beginning of an option in a text that begins at a place. -/
def next? (offset : Nat) : Text → Option Extent
  | [] => none
  | c :: rest =>
    match OptionTrigger.rest? name (c :: rest) with
    | some value => some ⟨offset, offset + Text.byteSize (Text.before (c :: rest) value)⟩
    | none => next? (offset + c.utf8Size) rest

/-- How far the removal is. -/
structure Cursors where
  /-- What is before this place is written or cut out. -/
  copied : Nat
  /-- The next option is searched from this place on. -/
  search : Nat
  output : Text
  removed : Nat
  /-- Where the options without an end begin that the search went past. -/
  warned : List Nat

namespace Cursors

/-- The search goes on behind the beginning of an option without an end. -/
def passing (s : Cursors) (found : Extent) : Cursors :=
  { s with search := found.stop, warned := s.warned ++ [found.start] }

/-- Both cursors go behind the end of an option. The gap before it is written. -/
def cutting (s : Cursors) (gap : Text) (stop : Nat) : Cursors :=
  { s with copied := stop, search := stop, output := s.output ++ gap, removed := s.removed + 1 }

end Cursors

inductive Turn where
  | again (next : Cursors)
  | finished (output : Text)

/-- One turn of the loop. It has no result if the text cannot be cut where a cursor stands. -/
def turn? (t : Text) (s : Cursors) : Option Turn :=
  (t.fromByte? s.search).bind fun ahead =>
    match next? s.search ahead with
    | none => (t.fromByte? s.copied).map fun tail => .finished (s.output ++ tail)
    | some found =>
      (valueEnd? t found.stop).bind fun
        | some stop => (t.slice? s.copied found.start).map fun gap => .again (s.cutting gap stop)
        | none => some (.again (s.passing found))

/-- The loop comes to these cursors. -/
def Reaches (t : Text) : Cursors → Prop :=
  Relation.ReflTransGen (fun s next => turn? t s = some (.again next)) ⟨0, 0, [], 0, []⟩

/-- The next option behind a gap of plain characters, or such characters only. -/
inductive Ahead (offset : Nat) : Text → List Piece → Option Extent → Prop where
  | nothing (gap : Text) : Ahead offset gap (gap.map .plain) none
  | endless (gap : Text) {trigger value : Text} {ps : List Piece}
      (written : IsTrigger name trigger) (endless : OptionValue.rest? value = none)
      (later : Divides value ps) :
      Ahead offset (gap ++ (trigger ++ value)) (gap.map .plain ++ .unterminated trigger :: ps)
        (some ⟨offset + gap.byteSize, offset + gap.byteSize + trigger.byteSize⟩)
  | option (gap : Text) {trigger value rest : Text} {ps : List Piece}
      (written : IsTrigger name trigger) (ends : OptionValue.rest? (value ++ rest) = some rest)
      (later : Divides rest ps) :
      Ahead offset (gap ++ (trigger ++ (value ++ rest)))
        (gap.map .plain ++ .option (trigger ++ value) :: ps)
        (some ⟨offset + gap.byteSize, offset + gap.byteSize + trigger.byteSize⟩)

theorem next?_trigger {trigger : Text} (h : IsTrigger name trigger) (value : Text) :
    next? offset (trigger ++ value) = some ⟨offset, offset + trigger.byteSize⟩ := by
  have found := OptionTrigger.rest?_append h value
  have cut := Text.before_self_append trigger value
  obtain ⟨rest, rfl⟩ := h.exists_keyword
  rw [List.cons_append] at found cut ⊢
  rw [next?, found]
  simp only [cut]

theorem Ahead.cons (c : Char) {found : Option Extent}
    (h : Ahead (offset + c.utf8Size) t ps found) :
    Ahead offset (c :: t) (.plain c :: ps) found := by
  cases h with
  | nothing => exact .nothing (c :: t)
  | endless gap written endless later =>
    have here := @Ahead.endless offset (c :: gap) _ _ _ written endless later
    simpa only [Text.byteSize, Nat.add_assoc, List.cons_append, List.map_cons] using here
  | option gap written ends later =>
    have here := @Ahead.option offset (c :: gap) _ _ _ _ written ends later
    simpa only [Text.byteSize, Nat.add_assoc, List.cons_append, List.map_cons] using here

/-- The search finds the first piece that is not a plain character. -/
theorem Divides.ahead (h : Divides t ps) (offset : Nat) : Ahead offset t ps (next? offset t) := by
  induction h generalizing offset with
  | done => exact .nothing []
  | @plain c r ps unmatched later ih =>
    rw [next?, OptionTrigger.rest?_eq_none_iff.mpr unmatched]
    exact (ih _).cons c
  | unterminated written endless later _ =>
    rw [next?_trigger written]
    exact .endless [] written endless later
  | option written ends later _ =>
    rw [next?_trigger written]
    exact .option [] written ends later

section Gap

variable (gap : Text)

theorem flatMap_kept_gap : (gap.map Piece.plain ++ ps).flatMap Piece.kept =
    gap ++ ps.flatMap Piece.kept := by
  induction gap with
  | nil => rfl
  | cons c gap ih => simp [Piece.kept, ih]

theorem countP_isOption_gap : (gap.map Piece.plain ++ ps).countP Piece.isOption =
    ps.countP Piece.isOption := by
  induction gap with
  | nil => rfl
  | cons c gap ih =>
    rw [List.map_cons, List.cons_append, List.countP_cons_of_neg Bool.false_ne_true, ih]

theorem unterminatedAt_gap (offset : Nat) :
    unterminatedAt offset (gap.map .plain ++ ps) = unterminatedAt (offset + gap.byteSize) ps := by
  induction gap generalizing offset with
  | nil => rfl
  | cons c gap ih =>
    change unterminatedAt (offset + c.utf8Size) (gap.map .plain ++ ps) = _
    rw [ih, Text.byteSize, Nat.add_assoc]

end Gap

/-- What holds between two turns. What is before the first cursor is `lead`, what stands between
the cursors is `gap`, and `ahead` with its pieces is what is not searched yet. -/
structure Held (t : Text) (s : Cursors) (lead gap ahead : Text) (ps : List Piece) : Prop where
  whole : t = lead ++ (gap ++ ahead)
  divided : Divides ahead ps
  copied : s.copied = lead.byteSize
  search : s.search = (lead ++ gap).byteSize
  output : s.output ++ (gap ++ ps.flatMap Piece.kept) = strip t
  removed : s.removed + ps.countP Piece.isOption = count t
  warned : s.warned ++ unterminatedAt s.search ps = unterminatedAt 0 (pieces t)

namespace Held

variable {s : Cursors} {lead gap ahead : Text}

theorem start (t : Text) : Held t ⟨0, 0, [], 0, []⟩ [] [] t (pieces t) where
  whole := rfl
  divided := divides_pieces t
  copied := rfl
  search := rfl
  output := rfl
  removed := Nat.zero_add _
  warned := rfl

theorem fromByte?_search (h : Held t s lead gap ahead ps) : t.fromByte? s.search = some ahead := by
  rw [h.whole, h.search, ← List.append_assoc, Text.fromByte?_append]

/-- Neither cursor goes past the end of the text, and the second one is never behind the first. -/
theorem bounds (h : Held t s lead gap ahead ps) : s.copied ≤ s.search ∧ s.search ≤ t.byteSize := by
  rw [h.copied, h.search, h.whole]
  simp only [Text.byteSize_append]
  omega

/-- When nothing is found, the rest of the text is written behind what was kept. -/
theorem finishes (h : Held t s lead gap ahead (ahead.map .plain))
    (nothing : next? s.search ahead = none) :
    turn? t s = some (.finished (strip t)) ∧ s.removed = count t ∧
      s.warned = unterminatedAt 0 (pieces t) := by
  have output := h.output
  have removed := h.removed
  have warned := h.warned
  rw [← List.append_nil (ahead.map Piece.plain)] at output removed warned
  rw [flatMap_kept_gap, List.flatMap_nil, List.append_nil] at output
  rw [countP_isOption_gap, List.countP_nil] at removed
  rw [unterminatedAt_gap, unterminatedAt, List.append_nil] at warned
  have tail : t.fromByte? s.copied = some (gap ++ ahead) := by
    rw [h.whole, h.copied, Text.fromByte?_append]
  refine ⟨?_, removed, warned⟩
  rw [turn?, h.fromByte?_search, Option.bind_some]
  simp only [nothing]
  rw [tail, Option.map_some, output]

section Option

variable {gone trigger value rest : Text}

theorem search_behind (h : Held t s lead gap (gone ++ (trigger ++ value)) ps) :
    s.search + gone.byteSize + trigger.byteSize =
      Text.byteSize (lead ++ (gap ++ (gone ++ trigger))) := by
  rw [h.search]
  simp only [Text.byteSize_append, Nat.add_assoc]

theorem valueEnd?_behind (h : Held t s lead gap (gone ++ (trigger ++ value)) ps) :
    valueEnd? t (s.search + gone.byteSize + trigger.byteSize) =
      some ((OptionValue.rest? value).map fun rest => t.byteSize - rest.byteSize) := by
  have whole : t = lead ++ (gap ++ (gone ++ trigger)) ++ value := by
    rw [h.whole]
    simp
  rw [h.search_behind, whole, valueEnd?_append]

/-- A beginning without an end goes into the gap between the cursors. -/
theorem passes (h : Held t s lead gap (gone ++ (trigger ++ value))
      (gone.map .plain ++ .unterminated trigger :: ps))
    (found : next? s.search (gone ++ (trigger ++ value)) =
      some ⟨s.search + gone.byteSize, s.search + gone.byteSize + trigger.byteSize⟩)
    (written : IsTrigger name trigger) (endless : OptionValue.rest? value = none)
    (later : Divides value ps) :
    ∃ next, turn? t s = some (.again next) ∧ s.search < next.search ∧
      Held t next lead (gap ++ (gone ++ trigger)) value ps := by
  have stop := h.valueEnd?_behind
  rw [endless, Option.map_none] at stop
  refine ⟨s.passing ⟨s.search + gone.byteSize, s.search + gone.byteSize + trigger.byteSize⟩,
    ?_, ?_, ?_⟩
  · rw [turn?, h.fromByte?_search, Option.bind_some]
    simp only [found]
    rw [stop, Option.bind_some]
  · have long := written.byteSize_pos
    dsimp only [Cursors.passing]
    omega
  · refine ⟨by rw [h.whole]; simp, later, h.copied, h.search_behind, ?_, ?_, ?_⟩
    · rw [← h.output, flatMap_kept_gap]
      simp [Cursors.passing, Piece.kept]
    · rw [← h.removed, countP_isOption_gap, List.countP_cons_of_neg Bool.false_ne_true]
      rfl
    · rw [← h.warned, unterminatedAt_gap]
      exact List.append_assoc s.warned _ _

/-- An option with its value leaves nothing between the cursors. -/
theorem cutsOut (h : Held t s lead gap (gone ++ (trigger ++ (value ++ rest)))
      (gone.map .plain ++ .option (trigger ++ value) :: ps))
    (found : next? s.search (gone ++ (trigger ++ (value ++ rest))) =
      some ⟨s.search + gone.byteSize, s.search + gone.byteSize + trigger.byteSize⟩)
    (written : IsTrigger name trigger) (ends : OptionValue.rest? (value ++ rest) = some rest)
    (later : Divides rest ps) :
    ∃ next, turn? t s = some (.again next) ∧ s.search < next.search ∧
      Held t next (lead ++ (gap ++ (gone ++ (trigger ++ value)))) [] rest ps := by
  have behind : s.search + gone.byteSize + trigger.byteSize + value.byteSize =
      Text.byteSize (lead ++ (gap ++ (gone ++ (trigger ++ value)))) := by
    rw [h.search_behind]
    simp only [Text.byteSize_append, Nat.add_assoc]
  have stop : valueEnd? t (s.search + gone.byteSize + trigger.byteSize) =
      some (some (s.search + gone.byteSize + trigger.byteSize + value.byteSize)) := by
    rw [h.valueEnd?_behind, ends, Option.map_some, behind, h.whole]
    simp only [Text.byteSize_append]
    congr 2
    omega
  have slice : t.slice? s.copied (s.search + gone.byteSize) = some (gap ++ gone) := by
    have cut := Text.slice?_append lead (gap ++ gone) (trigger ++ (value ++ rest))
    rw [h.whole, h.copied, h.search, ← cut]
    simp [Text.byteSize_append, Nat.add_assoc]
  refine ⟨s.cutting (gap ++ gone)
    (s.search + gone.byteSize + trigger.byteSize + value.byteSize), ?_, ?_, ?_⟩
  · rw [turn?, h.fromByte?_search, Option.bind_some]
    simp only [found]
    rw [stop, Option.bind_some]
    simp only
    rw [slice, Option.map_some]
  · have long := written.byteSize_pos
    dsimp only [Cursors.cutting]
    omega
  · refine ⟨by rw [h.whole]; simp, later, behind, by rw [List.append_nil]; exact behind, ?_, ?_, ?_⟩
    · rw [← h.output, flatMap_kept_gap]
      simp [Cursors.cutting, Piece.kept]
    · rw [← h.removed, countP_isOption_gap, List.countP_cons_of_pos rfl]
      exact Nat.add_right_comm s.removed 1 _
    · rw [← h.warned, unterminatedAt_gap, Nat.add_assoc _ trigger.byteSize,
        ← Text.byteSize_append]
      rfl

end Option

/-- A turn finishes, or it brings the search forward. -/
theorem turn (h : Held t s lead gap ahead ps) :
    (turn? t s = some (.finished (strip t)) ∧ s.removed = count t ∧
      s.warned = unterminatedAt 0 (pieces t)) ∨
    ∃ next, turn? t s = some (.again next) ∧ s.search < next.search ∧
      ∃ lead gap ahead ps, Held t next lead gap ahead ps := by
  have found := h.divided.ahead s.search
  generalize here : next? s.search ahead = place at found
  cases found with
  | nothing => exact Or.inl (h.finishes here)
  | endless gone written endless later =>
    obtain ⟨next, again, forward, held⟩ := h.passes here written endless later
    exact Or.inr ⟨next, again, forward, _, _, _, _, held⟩
  | option gone written ends later =>
    obtain ⟨next, again, forward, held⟩ := h.cutsOut here written ends later
    exact Or.inr ⟨next, again, forward, _, _, _, _, held⟩

end Held

variable {s : Cursors}

/-- What holds between two turns holds of every cursors that the loop comes to. -/
theorem Reaches.held (run : Reaches t s) : ∃ lead gap ahead ps, Held t s lead gap ahead ps := by
  induction run with
  | refl => exact ⟨_, _, _, _, Held.start t⟩
  | tail _ step ih =>
    obtain ⟨_, _, _, _, held⟩ := ih
    rcases held.turn with ⟨finished, _⟩ | ⟨next, again, _, later⟩
    · rw [finished] at step
      cases step
    · rw [again] at step
      cases step
      exact later

/-- Every run that is not finished goes on to the end of the loop. -/
theorem Reaches.finishes (run : Reaches t s) :
    ∃ last, Reaches t last ∧ turn? t last = some (.finished (strip t)) ∧
      last.removed = count t ∧ last.warned = unterminatedAt 0 (pieces t) := by
  induction left : t.byteSize - s.search using Nat.strongRecOn generalizing s with
  | ind n ih =>
    obtain ⟨_, _, _, _, held⟩ := run.held
    rcases held.turn with finished | ⟨next, again, forward, _, _, _, _, later⟩
    · exact ⟨s, run, finished⟩
    · have inside := later.bounds.2
      exact ih _ (by omega) (Relation.ReflTransGen.tail run again) rfl

/-- The loop divides every text into gaps and cuts, and what it gives is the gaps, the number of
the cuts and the places of the beginnings that stay. It has a result in every turn, its cursors
stay in order and inside the text, and each turn but the last one brings the search forward. -/
theorem strip_removal (t : Text) :
    (∃ cuts offsets last, Removal t cuts offsets ∧ Reaches t last ∧
      turn? t last = some (.finished (strip t)) ∧ last.removed = count t ∧
      last.warned = offsets) ∧
    ∀ s, Reaches t s → s.copied ≤ s.search ∧ s.search ≤ t.byteSize ∧ turn? t s ≠ none ∧
      ∀ next, turn? t s = some (.again next) → s.search < next.search := by
  constructor
  · obtain ⟨last, run, finished, removed, warned⟩ := Reaches.finishes (t := t) .refl
    exact ⟨_, _, last, removal t, run, finished, removed, warned⟩
  · intro s run
    obtain ⟨_, _, _, _, held⟩ := run.held
    obtain ⟨ordered, inside⟩ := held.bounds
    refine ⟨ordered, inside, ?_⟩
    rcases held.turn with ⟨finished, _⟩ | ⟨next, again, forward, _⟩
    · rw [finished]
      exact ⟨nofun, nofun⟩
    · rw [again]
      refine ⟨nofun, ?_⟩
      intro other same
      cases same
      exact forward

end ProtoPrep.HttpOption
