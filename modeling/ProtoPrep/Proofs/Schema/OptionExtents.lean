import ProtoPrep.Proofs.Schema.HttpOption
import ProtoPrep.Proofs.Text.Bytes

/-!
# Which beginnings stay

The options that are cut out, each with its place in bytes, make the text a sequence
of gaps and cuts. A beginning lies inside a cut, or it is apart from all of them; it
is apart exactly if its value has no end and no cut covers it, and then the log names
its place.
-/

namespace ProtoPrep

theorem IsTrigger.byteSize_pos {option trigger : Text} (h : IsTrigger option trigger) :
    0 < trigger.byteSize := by
  obtain ⟨_, rfl⟩ := h.exists_keyword
  exact Text.byteSize_pos (List.cons_ne_nil _ _)

namespace HttpOption

variable {t : Text} {ps : List Piece} {piece : Piece} {offset n : Nat}

def size (ps : List Piece) : Nat :=
  Text.byteSize (ps.flatMap Piece.source)

@[simp] theorem size_nil : size [] = 0 := rfl

@[simp] theorem size_cons (piece : Piece) (ps : List Piece) :
    size (piece :: ps) = piece.source.byteSize + size ps := by
  simp [size, Text.byteSize_append]

/-- The pieces put together: the options are the cuts, and what stays fills the gaps. The first
gap begins with the given text. -/
def cuts (gap : Text) : List Piece → Cuts
  | [] => .last gap
  | .option span :: ps => .hit gap span (cuts [] ps)
  | piece :: ps => cuts (gap ++ piece.source) ps

theorem Piece.eq_of_stays (stays : ∀ span, piece = .option span → False) :
    piece.kept = piece.source ∧ piece.isOption = false := by
  cases piece with
  | plain c => exact ⟨rfl, rfl⟩
  | unterminated trigger => exact ⟨rfl, rfl⟩
  | option span => exact (stays span rfl).elim

theorem source_cuts (gap : Text) (ps : List Piece) :
    (cuts gap ps).source = gap ++ ps.flatMap Piece.source := by
  fun_induction cuts gap ps with
  | case1 gap => simp [Cuts.source]
  | case2 gap span ps ih => simp [Cuts.source, Piece.source, ih]
  | case3 gap piece ps _ ih => simp [ih]

theorem fill_cuts (gap : Text) (ps : List Piece) :
    (cuts gap ps).fill [] = gap ++ ps.flatMap Piece.kept := by
  fun_induction cuts gap ps with
  | case1 gap => simp [Cuts.fill]
  | case2 gap span ps ih => simp [Cuts.fill, Piece.kept, ih]
  | case3 gap piece ps stays ih => simp [ih, (Piece.eq_of_stays stays).1]

theorem count_cuts (gap : Text) (ps : List Piece) :
    (cuts gap ps).count = ps.countP Piece.isOption := by
  fun_induction cuts gap ps with
  | case1 gap => rfl
  | case2 gap span ps ih => rw [Cuts.count_hit, ih, List.countP_cons_of_pos rfl]
  | case3 gap piece ps stays ih => simp [ih, (Piece.eq_of_stays stays).2]

/-- The pieces, each with the place where it begins. -/
def placed (offset : Nat) : List Piece → List (Nat × Piece)
  | [] => []
  | piece :: ps => (offset, piece) :: placed (offset + piece.source.byteSize) ps

/-- A piece is placed behind the bytes of the pieces before it. -/
theorem mem_placed_iff : (n, piece) ∈ placed offset ps ↔
    ∃ earlier later, ps = earlier ++ piece :: later ∧ n = offset + size earlier := by
  induction ps generalizing offset with
  | nil => simp [placed]
  | cons first ps ih =>
    rw [placed, List.mem_cons, ih]
    constructor
    · rintro (here | ⟨earlier, later, rfl, rfl⟩)
      · cases here
        exact ⟨[], ps, rfl, rfl⟩
      · exact ⟨first :: earlier, later, rfl, by simp [Nat.add_assoc]⟩
    · rintro ⟨earlier, later, split, rfl⟩
      rcases List.cons_eq_append_iff.mp split with ⟨rfl, same⟩ | ⟨tail, rfl, rfl⟩
      · injection same with same _
        exact Or.inl (by simp [same])
      · exact Or.inr ⟨tail, later, rfl, by simp [Nat.add_assoc]⟩

theorem placed_append (offset : Nat) (ps later : List Piece) :
    placed offset (ps ++ later) = placed offset ps ++ placed (offset + size ps) later := by
  induction ps generalizing offset with
  | nil => rfl
  | cons piece ps ih =>
    rw [List.cons_append, placed, placed, ih, size_cons, Nat.add_assoc, List.cons_append]

theorem placed_add (offset n : Nat) (ps : List Piece) :
    placed (offset + n) ps = (placed offset ps).map fun here => (here.1 + n, here.2) := by
  induction ps generalizing offset with
  | nil => rfl
  | cons piece ps ih => rw [placed, placed, List.map_cons, ← ih, Nat.add_right_comm]

/-- Pieces stand one behind the other. -/
theorem placed_pairwise (nonempty : ∀ piece ∈ ps, piece.source ≠ []) (offset : Nat) :
    (placed offset ps).Pairwise fun first second =>
      first.1 < second.1 ∧ first.1 + first.2.source.byteSize ≤ second.1 := by
  induction ps generalizing offset with
  | nil => exact .nil
  | cons first ps ih =>
    obtain ⟨here, others⟩ := List.forall_mem_cons.mp nonempty
    have long := Text.byteSize_pos here
    rw [placed]
    refine .cons ?_ (ih others _)
    rintro ⟨n, piece⟩ member
    obtain ⟨earlier, later, _, rfl⟩ := mem_placed_iff.mp member
    dsimp only
    omega

def cutAt : Nat × Piece → Option Extent
  | (n, .option span) => some ⟨n, n + span.byteSize⟩
  | _ => none

def warnedAt : Nat × Piece → Option Nat
  | (n, .unterminated _) => some n
  | _ => none

theorem extents_cuts (gap : Text) (ps : List Piece) (offset : Nat) :
    (cuts gap ps).extents offset = (placed (offset + gap.byteSize) ps).filterMap cutAt := by
  fun_induction cuts gap ps generalizing offset with
  | case1 gap => rfl
  | case2 gap span ps ih => simp [Cuts.extents, placed, cutAt, Piece.source, ih]
  | case3 gap piece ps stays ih =>
    have not_cut : cutAt (offset + gap.byteSize, piece) = none := by
      cases piece with
      | option span => exact (stays span rfl).elim
      | _ => rfl
    rw [ih, placed, List.filterMap_cons_none not_cut, Text.byteSize_append, Nat.add_assoc]

theorem unterminatedAt_eq (offset : Nat) (ps : List Piece) :
    unterminatedAt offset ps = (placed offset ps).filterMap warnedAt := by
  induction ps generalizing offset with
  | nil => rfl
  | cons piece ps ih =>
    rw [placed, List.filterMap_cons]
    cases piece with
    | plain c => exact ih _
    | unterminated trigger => exact congrArg (List.cons offset) (ih _)
    | option span => exact ih _

def cutsOf (t : Text) : Cuts :=
  cuts [] (pieces t)

/-- The places of the cuts. -/
def cutExtents (t : Text) : List Extent :=
  (cutsOf t).extents 0

theorem cutExtents_eq (t : Text) : cutExtents t = (placed 0 (pieces t)).filterMap cutAt :=
  extents_cuts [] (pieces t) 0

theorem mem_cutExtents_iff {cut : Extent} : cut ∈ cutExtents t ↔
    ∃ span, (cut.start, .option span) ∈ placed 0 (pieces t) ∧
      cut.stop = cut.start + span.byteSize := by
  rw [cutExtents_eq, List.mem_filterMap]
  constructor
  · rintro ⟨⟨n, piece⟩, member, found⟩
    cases piece with
    | option span =>
      cases found
      exact ⟨span, member, rfl⟩
    | _ => cases found
  · rintro ⟨span, member, stop⟩
    refine ⟨_, member, ?_⟩
    rw [cutAt, ← stop]

theorem mem_unterminatedAt_iff : n ∈ unterminatedAt 0 (pieces t) ↔
    ∃ trigger, (n, .unterminated trigger) ∈ placed 0 (pieces t) := by
  rw [unterminatedAt_eq, List.mem_filterMap]
  constructor
  · rintro ⟨⟨m, piece⟩, member, found⟩
    cases piece with
    | unterminated trigger =>
      cases found
      exact ⟨trigger, member⟩
    | _ => cases found
  · rintro ⟨trigger, member⟩
    exact ⟨_, member, rfl⟩

theorem Divides.source_ne_nil (h : Divides t ps) : ∀ piece ∈ ps, piece.source ≠ [] := by
  induction h with
  | done => exact nofun
  | plain _ _ ih => exact List.forall_mem_cons.mpr ⟨List.cons_ne_nil _ _, ih⟩
  | unterminated written _ _ ih =>
    obtain ⟨_, rfl⟩ := written.exists_keyword
    exact List.forall_mem_cons.mpr ⟨List.cons_ne_nil _ _, ih⟩
  | option written _ _ ih =>
    obtain ⟨_, rfl⟩ := written.exists_keyword
    exact List.forall_mem_cons.mpr ⟨List.cons_ne_nil _ _, ih⟩

theorem placed_pieces_pairwise (t : Text) :
    (placed 0 (pieces t)).Pairwise fun first second =>
      first.1 < second.1 ∧ first.1 + first.2.source.byteSize ≤ second.1 :=
  placed_pairwise (divides_pieces t).source_ne_nil 0

/-- The log warns of the places in their order. -/
theorem unterminatedAt_pairwise (t : Text) :
    (unterminatedAt 0 (pieces t)).Pairwise (· < ·) := by
  rw [unterminatedAt_eq]
  refine (placed_pieces_pairwise t).filterMap _ ?_
  rintro ⟨n, first⟩ ⟨m, second⟩ ⟨ordered, _⟩ b hb c hc
  cases first <;> cases hb
  cases second <;> cases hc
  exact ordered

/-- Two different pieces do not overlap. -/
theorem placed_apart {first second : Nat × Piece} (h : first ∈ placed 0 (pieces t))
    (g : second ∈ placed 0 (pieces t)) (different : first ≠ second) :
    first.1 + first.2.source.byteSize ≤ second.1 ∨
      second.1 + second.2.source.byteSize ≤ first.1 := by
  have ordered := placed_pieces_pairwise t
  refine List.Pairwise.forall_of_forall_of_flip (R := fun a b : Nat × Piece => a ≠ b →
    a.1 + a.2.source.byteSize ≤ b.1 ∨ b.1 + b.2.source.byteSize ≤ a.1)
    (fun _ _ same => absurd rfl same) ?_ ?_ h g different
  · exact ordered.imp fun behind _ => Or.inl behind.2
  · exact ordered.imp fun behind _ => Or.inr behind.2

/-- An option begins at these bytes. -/
def BeginsAt (t : Text) (place : Extent) : Prop :=
  ∃ lead trigger after, IsTrigger name trigger ∧ t = lead ++ (trigger ++ after) ∧
    place = ⟨lead.byteSize, (lead ++ trigger).byteSize⟩

/-- Where the value that begins at a place ends: nowhere, it may be. There is no answer at all for
a place at which the text cannot be cut. -/
def valueEnd? (t : Text) (place : Nat) : Option (Option Nat) :=
  (t.fromByte? place).map fun value =>
    (OptionValue.rest? value).map fun rest => t.byteSize - rest.byteSize

theorem valueEnd?_append (lead value : Text) : valueEnd? (lead ++ value) lead.byteSize =
    some ((OptionValue.rest? value).map fun rest =>
      (lead ++ value).byteSize - rest.byteSize) := by
  rw [valueEnd?, Text.fromByte?_append, Option.map_some]

theorem BeginsAt.start_lt_stop {place : Extent} (h : BeginsAt t place) :
    place.start < place.stop := by
  obtain ⟨lead, trigger, after, written, _, rfl⟩ := h
  have long := written.byteSize_pos
  dsimp only
  rw [Text.byteSize_append]
  omega

/-- A piece that is warned of is the beginning of an option, untouched and without an end. -/
theorem of_mem_placed {trigger : Text} (h : (n, .unterminated trigger) ∈ placed 0 (pieces t)) :
    BeginsAt t ⟨n, n + trigger.byteSize⟩ ∧
      (∀ cut ∈ cutExtents t, cut.Apart ⟨n, n + trigger.byteSize⟩) ∧
      valueEnd? t (n + trigger.byteSize) = some none := by
  obtain ⟨earlier, later, split, rfl⟩ := mem_placed_iff.mp h
  have divided := divides_pieces t
  rw [split] at divided
  obtain ⟨written, endless⟩ := divided.unterminated_behind
  have whole := divided.flatMap_source
  rw [List.flatMap_append, List.flatMap_cons, Piece.source] at whole
  have place : 0 + size earlier + trigger.byteSize =
      Text.byteSize (earlier.flatMap Piece.source ++ trigger) := by
    rw [Nat.zero_add, size, Text.byteSize_append]
  refine ⟨⟨_, trigger, _, written, whole.symm, ?_⟩, fun cut member => ?_, ?_⟩
  · rw [place, Nat.zero_add, size]
  · obtain ⟨span, placed_, stop⟩ := mem_cutExtents_iff.mp member
    rcases placed_apart h placed_ (by simp) with before | behind
    · exact Or.inr before
    · exact Or.inl (stop ▸ behind)
  · rw [place, ← whole, ← List.append_assoc, valueEnd?_append, endless]
    rfl

/-- A cut begins where an option begins and ends where its value does. -/
theorem of_mem_cutExtents {cut : Extent} (member : cut ∈ cutExtents t) :
    ∃ stop, BeginsAt t ⟨cut.start, stop⟩ ∧ valueEnd? t stop = some (some cut.stop) := by
  obtain ⟨span, here, stop⟩ := mem_cutExtents_iff.mp member
  obtain ⟨earlier, later, split, start⟩ := mem_placed_iff.mp here
  have divided := divides_pieces t
  rw [split] at divided
  obtain ⟨trigger, value, rfl, written, ends⟩ := divided.option_behind
  have whole := divided.flatMap_source
  rw [List.flatMap_append, List.flatMap_cons, Piece.source, List.append_assoc] at whole
  have place : cut.start + trigger.byteSize =
      Text.byteSize (earlier.flatMap Piece.source ++ trigger) := by
    rw [start, Nat.zero_add, size, Text.byteSize_append]
  have bytes : t.byteSize = cut.stop + size later := by
    rw [← whole, stop, start]
    simp only [size, Text.byteSize_append]
    omega
  refine ⟨cut.start + trigger.byteSize, ⟨_, trigger, _, written, whole.symm, ?_⟩, ?_⟩
  · rw [place, start, Nat.zero_add, size]
  · rw [place, ← whole, ← List.append_assoc, valueEnd?_append, ends, List.append_assoc, whole,
      Option.map_some, bytes]
    simp [size]

/-- An option begins in a piece that is warned of or inside a cut. -/
theorem BeginsAt.cases {place : Extent} (h : BeginsAt t place) :
    (place.start ∈ unterminatedAt 0 (pieces t) ∧ (∀ cut ∈ cutExtents t, cut.Apart place) ∧
      valueEnd? t place.stop = some none) ∨ ∃ cut ∈ cutExtents t, cut.Covers place := by
  obtain ⟨lead, trigger, after, written, whole, rfl⟩ := h
  cases (divides_pieces t).placed written whole with
  | stays earlier later split before behind =>
    have member : (Text.byteSize lead, .unterminated trigger) ∈ placed 0 (pieces t) :=
      mem_placed_iff.mpr ⟨earlier, later, split, by rw [before, size, Nat.zero_add]⟩
    rw [Text.byteSize_append]
    exact Or.inl ⟨mem_unterminatedAt_iff.mpr ⟨trigger, member⟩, (of_mem_placed member).2⟩
  | cut earlier later inner tail split before behind =>
    have member : (size earlier, .option (inner ++ (trigger ++ tail))) ∈ placed 0 (pieces t) :=
      mem_placed_iff.mpr ⟨earlier, later, split, (Nat.zero_add _).symm⟩
    refine Or.inr ⟨⟨size earlier, size earlier + Text.byteSize (inner ++ (trigger ++ tail))⟩,
      mem_cutExtents_iff.mpr ⟨_, member, rfl⟩, ?_⟩
    rw [before]
    simp only [Extent.Covers, size, Text.byteSize_append]
    omega

/-- A place that a cut covers is not apart from it. -/
theorem BeginsAt.not_apart {cut place : Extent} (h : BeginsAt t place) (inside : cut.Covers place) :
    ¬ cut.Apart place := by
  have long := h.start_lt_stop
  obtain ⟨early, late⟩ := inside
  rintro (before | behind) <;> omega

/-- What a removal does with a text. The cuts are what is taken out of it, and the offsets are the
places that its log warns of. -/
structure Removal (t : Text) (cuts : Cuts) (offsets : List Nat) : Prop where
  source : cuts.source = t
  output : cuts.fill [] = strip t
  number : cuts.count = count t
  /-- A cut begins where an option begins and ends where the value of that option does. -/
  extent : ∀ cut ∈ cuts.extents 0, ∃ stop, BeginsAt t ⟨cut.start, stop⟩ ∧
    valueEnd? t stop = some (some cut.stop)
  /-- An option begins together with a cut, inside one, or apart from all. -/
  begins : ∀ place, BeginsAt t place →
    (∃ cut ∈ cuts.extents 0, cut.start = place.start ∧ place.stop ≤ cut.stop) ∨
    (∃ cut ∈ cuts.extents 0, cut.start < place.start ∧ place.stop ≤ cut.stop) ∨
    ∀ cut ∈ cuts.extents 0, cut.Apart place
  /-- The beginnings that stay are those without an end that no cut covers. -/
  stays : ∀ place, BeginsAt t place →
    ((∀ cut ∈ cuts.extents 0, cut.Apart place) ↔
      valueEnd? t place.stop = some none ∧ ∀ cut ∈ cuts.extents 0, ¬ cut.Covers place)
  offset : ∀ n, n ∈ offsets ↔
    ∃ stop, BeginsAt t ⟨n, stop⟩ ∧ ∀ cut ∈ cuts.extents 0, cut.Apart ⟨n, stop⟩
  increasing : offsets.Pairwise (· < ·)
  warnings : (records t).filter (·.level = .warn) = offsets.map fun n =>
    ⟨.warn, s!"Unterminated google.api.http option at byte {n}, leaving it in place"⟩

theorem filter_warn_records (t : Text) : (records t).filter (·.level = .warn) =
    (unterminatedAt 0 (pieces t)).map fun n =>
      ⟨.warn, s!"Unterminated google.api.http option at byte {n}, leaving it in place"⟩ := by
  rw [records, List.filter_append, List.filter_eq_self.mpr (by simp)]
  split <;> simp

theorem removal (t : Text) : Removal t (cutsOf t) (unterminatedAt 0 (pieces t)) where
  source := (source_cuts [] _).trans (flatMap_source_pieces t)
  output := fill_cuts [] _
  number := count_cuts [] _
  extent cut member := of_mem_cutExtents member
  begins place h := by
    rcases h.cases with ⟨_, apart, _⟩ | ⟨cut, member, first, last⟩
    · exact Or.inr (Or.inr apart)
    rcases Nat.eq_or_lt_of_le first with same | inner
    · exact Or.inl ⟨cut, member, same, last⟩
    · exact Or.inr (Or.inl ⟨cut, member, inner, last⟩)
  stays place h := by
    constructor
    · intro apart
      have uncovered : ∀ cut ∈ cutExtents t, ¬ cut.Covers place :=
        fun cut member inside => h.not_apart inside (apart cut member)
      rcases h.cases with ⟨_, _, endless⟩ | ⟨cut, member, inside⟩
      · exact ⟨endless, uncovered⟩
      · exact absurd inside (uncovered cut member)
    · rintro ⟨_, uncovered⟩
      rcases h.cases with ⟨_, apart, _⟩ | ⟨cut, member, inside⟩
      · exact apart
      · exact absurd inside (uncovered cut member)
  offset n := by
    constructor
    · intro member
      obtain ⟨trigger, here⟩ := mem_unterminatedAt_iff.mp member
      obtain ⟨begins, apart, _⟩ := of_mem_placed here
      exact ⟨_, begins, apart⟩
    · rintro ⟨stop, begins, apart⟩
      rcases begins.cases with ⟨member, _⟩ | ⟨cut, member, inside⟩
      · exact member
      · exact absurd (apart cut member) (begins.not_apart inside)
  increasing := unterminatedAt_pairwise t
  warnings := filter_warn_records t

end HttpOption

end ProtoPrep
