import ProtoPrep.Proofs.Schema.Rule
import ProtoPrep.Proofs.Text.Leftmost

/-!
# Which imports are dropped

A text divides in one way into import statements and gaps in which none begins, and
the gaps are what stays. Two gaps can join to a new statement: this needs a keyword in
the text that belongs to no dropped statement. The keyword itself is not made up of two
gaps, since a statement that is dropped begins where no word is open.
-/

namespace ProtoPrep

namespace ImportStatement

variable {t : Text} {place : Extent}

/-- A statement stands at these bytes. -/
def StandsAt (t : Text) (place : Extent) : Prop :=
  ∃ lead statement after, t = lead ++ (statement ++ after) ∧
    wordMayBegin lead.getLast? = true ∧ IsStatement statement ∧
    place = ⟨lead.byteSize, (lead ++ statement).byteSize⟩

theorem at?_eq_some_iff {before : Option Char} {span rest : Text} :
    Pattern.importStatement.at? before (span ++ rest) = some (span, rest) ↔
      wordMayBegin before = true ∧ IsStatement span := by
  rw [Pattern.importStatement, Pattern.ofRest_at?_eq_some_iff, rest?_eq_some_iff]
  constructor
  · rintro ⟨opens, ⟨statement, written, same⟩, _⟩
    obtain rfl := List.append_cancel_right same
    exact ⟨opens, written⟩
  · rintro ⟨opens, written⟩
    exact ⟨opens, ⟨span, written, rfl⟩, rfl⟩

/-- The matches of the pattern are the statements of the grammar. -/
theorem foundAt_eq (t : Text) : Pattern.importStatement.FoundAt t = StandsAt t := by
  funext place
  simp only [Pattern.FoundAt, StandsAt, at?_eq_some_iff, and_assoc]

/-- No two statements begin at one place. -/
theorem IsStatement.eq_of_append_eq {statement other rest after : Text} (h : IsStatement statement)
    (g : IsStatement other) (same : statement ++ rest = other ++ after) : statement = other := by
  have first : rest? (statement ++ rest) = some rest := rest?_eq_some_iff.mpr ⟨statement, h, rfl⟩
  have second : rest? (other ++ after) = some after := rest?_eq_some_iff.mpr ⟨other, g, rfl⟩
  rw [same, second] at first
  cases first
  exact List.append_cancel_right same

/-- At one place one statement begins at most. -/
theorem StandsAt.unique {other : Extent} (h : StandsAt t place) (g : StandsAt t other)
    (same : place.start = other.start) : place = other := by
  obtain ⟨lead, statement, rest, rfl, _, written, rfl⟩ := h
  obtain ⟨lead', statement', rest', whole, _, written', rfl⟩ := g
  obtain ⟨rfl, behind⟩ := Text.eq_of_byteSize_eq whole same
  rw [written.eq_of_append_eq written' behind]

end ImportStatement

namespace Rule

open ImportStatement

theorem apply_stripImports (t : Text) : stripImports.apply t =
    ⟨(Pattern.importStatement.cuts none t).gaps.flatten,
      (Pattern.importStatement.cuts none t).spans.length⟩ := by
  rw [← Cuts.fill_nil]
  rfl

/-- What is dropped are statements, and what is kept are the gaps between them, in which no
statement begins. There is one such division of a text, and one end to each statement. -/
theorem stripImports_exact (t : Text) :
    (∃ cuts : Cuts, cuts.Divides (StandsAt t) t ∧
      stripImports.apply t = ⟨cuts.gaps.flatten, cuts.spans.length⟩ ∧
      ∀ other : Cuts, other.Divides (StandsAt t) t → other = cuts) ∧
    ∀ first second, StandsAt t first → StandsAt t second → first.start = second.start →
      first = second := by
  constructor
  · refine ⟨Pattern.importStatement.cuts none t, ?_, apply_stripImports t, ?_⟩
    · rw [← foundAt_eq]
      exact Pattern.divides_cuts _ t
    · intro other divides
      rw [← foundAt_eq] at divides
      exact Pattern.eq_cuts_of_divides divides
  · intro first second stands stands' same
    exact stands.unique stands' same

end Rule

namespace ImportStatement

variable {t lead gap front after : Text} {c : Char} {cuts : Cuts} {place : Extent}

def keyword : Text :=
  "import".toList

/-- The keyword of a statement stands at these bytes: no word runs into it, and a blank follows. -/
def KeywordAt (t : Text) (place : Extent) : Prop :=
  ∃ lead c after, t = lead ++ (keyword ++ c :: after) ∧
    wordMayBegin lead.getLast? = true ∧ isBlank c = true ∧
    place = ⟨lead.byteSize, (lead ++ keyword).byteSize⟩

theorem all_isWord_keyword : keyword.all isWord = true := by decide +kernel

theorem wordMayBegin_append {s t : Text} (h : wordMayBegin s.getLast? = true)
    (g : wordMayBegin t.getLast? = true) : wordMayBegin (s ++ t).getLast? = true := by
  rw [List.getLast?_append]
  cases last : t.getLast? with
  | none => exact h
  | some c => rwa [last] at g

theorem wordMayBegin_of_append {s t : Text} (h : wordMayBegin (s ++ t).getLast? = true) :
    wordMayBegin t.getLast? = true := by
  cases last : t.getLast? with
  | none => rfl
  | some c => rwa [List.getLast?_append, last] at h

theorem KeywordAt.start_lt_stop (h : KeywordAt t place) : place.start < place.stop := by
  obtain ⟨lead, _, _, _, _, _, rfl⟩ := h
  have long : 0 < keyword.byteSize := by decide
  dsimp only
  rw [Text.byteSize_append]
  omega

/-- A keyword that begins in a gap ends there, with the blank behind it: it is one word, and
behind the gap no word goes on. -/
theorem keyword_in_gap {rest : Text} (opens : wordMayBegin (lead ++ gap).getLast? = true)
    (whole : gap ++ rest = front ++ (keyword ++ c :: after))
    (early : front.byteSize < gap.byteSize) : ∃ tail, gap = front ++ (keyword ++ c :: tail) := by
  obtain ⟨part, rfl, begins⟩ := Text.exists_between whole.symm early.le
  have solid : part ≠ [] := by
    rintro rfl
    simp at early
  have ends : wordMayBegin part.getLast? = true := by
    rw [← List.append_assoc] at opens
    exact wordMayBegin_of_append opens
  rw [List.append_cons] at begins
  rcases List.append_eq_append_iff.mp begins with ⟨tail, rfl, _⟩ | ⟨tail, split, _⟩
  · exact ⟨tail, by simp⟩
  · rcases List.prefix_concat_iff.mp ⟨tail, split.symm⟩ with rfl | inner
    · exact ⟨[], by simp⟩
    · obtain ⟨d, last⟩ := Option.isSome_iff_exists.mp (List.getLast?_isSome.mpr solid)
      have member := inner.subset (List.mem_of_getLast? last)
      rw [last, wordMayBegin, List.all_eq_true.mp all_isWord_keyword d member] at ends
      cases ends

theorem keywordAt_append (opens : wordMayBegin lead.getLast? = true)
    (starts : wordMayBegin front.getLast? = true) (blank : isBlank c = true) (tail behind : Text) :
    KeywordAt (lead ++ (front ++ (keyword ++ c :: tail) ++ behind))
      ⟨lead.byteSize + front.byteSize, lead.byteSize + front.byteSize + keyword.byteSize⟩ := by
  refine ⟨lead ++ front, c, tail ++ behind, by simp, wordMayBegin_append opens starts, blank, ?_⟩
  simp only [Text.byteSize_append]

/-- A keyword in what stays stood in the text, outside of the statements that are dropped. -/
theorem keywordAt_of_fill (h : Pattern.importStatement.Leftmost lead cuts)
    (opens : wordMayBegin lead.getLast? = true)
    (whole : cuts.fill [] = front ++ (keyword ++ c :: after))
    (starts : wordMayBegin front.getLast? = true) (blank : isBlank c = true) :
    ∃ place, KeywordAt (lead ++ cuts.source) place ∧ lead.byteSize ≤ place.start ∧
      ∀ cut ∈ cuts.extents lead.byteSize, ¬ cut.Covers place := by
  induction h generalizing front with
  | @last lead gap free =>
    obtain rfl : gap = front ++ (keyword ++ c :: after) := whole
    have here := keywordAt_append opens starts blank after []
    rw [List.append_nil] at here
    exact ⟨_, here, Nat.le_add_right _ _, nofun⟩
  | @hit lead gap span rest free found later ih =>
    obtain ⟨opens', written⟩ := at?_eq_some_iff.mp found
    rw [Cuts.fill, List.append_nil] at whole
    by_cases behind : gap.byteSize ≤ front.byteSize
    · -- Behind a statement no word is open, so the rest is judged as if it began the text.
      obtain ⟨between, rfl, later_whole⟩ := Text.exists_between whole behind
      have closes : wordMayBegin (lead ++ (gap ++ span)).getLast? = true := by
        rw [← List.append_assoc, List.getLast?_append_of_ne_nil _ (Pattern.ne_nil _ found),
          written.getLast?_eq]
        decide +kernel
      obtain ⟨place, here, ahead, uncovered⟩ :=
        ih closes later_whole (wordMayBegin_of_append starts)
      rw [Cuts.append_source_hit, Cuts.extents_hit]
      refine ⟨place, here, ?_, ?_⟩
      · rw [Text.byteSize_append] at ahead
        omega
      · intro cut member
        rcases List.mem_cons.mp member with rfl | member
        · rintro ⟨_, inside⟩
          have long := here.start_lt_stop
          dsimp only at inside
          omega
        · exact uncovered cut member
    · obtain ⟨tail, rfl⟩ := keyword_in_gap opens' whole (by omega)
      have here := keywordAt_append opens starts blank tail (span ++ rest.source)
      rw [← List.append_assoc (front ++ _)] at here
      refine ⟨_, here, Nat.le_add_right _ _, ?_⟩
      rintro cut member ⟨early, _⟩
      have late := Pattern.gap_le_start member
      have long : 0 < Text.byteSize (keyword ++ c :: tail) :=
        Text.byteSize_pos (List.append_ne_nil_of_right_ne_nil _ (List.cons_ne_nil c tail))
      rw [Text.byteSize_append] at late
      dsimp only at early
      omega

theorem StandsIn.keywordAt (h : StandsIn t) : ∃ place, KeywordAt t place := by
  obtain ⟨lead, statement, after, rfl, opens, written⟩ := h
  cases written with
  | @intro space modifier path blanks spaced modified unquoted blank =>
    obtain ⟨solid, all_blank⟩ := spaced
    obtain ⟨c, space, rfl⟩ := List.exists_cons_of_ne_nil solid
    refine ⟨_, lead, c, space ++ (modifier ++ '"' :: (path ++ '"' :: (blanks ++ ';' :: after))),
      ?_, opens, all_blank c List.mem_cons_self, rfl⟩
    have word : "import".toList = keyword := rfl
    simp only [word, List.append_assoc, List.cons_append, List.nil_append]

/-- The places of the statements that are dropped. -/
def dropped (t : Text) : List Extent :=
  (Pattern.importStatement.cuts none t).extents 0

/-- Every keyword of a statement begins a statement that is dropped, or stands inside one. -/
def KeywordsDropped (t : Text) : Prop :=
  ∀ place, KeywordAt t place → ∃ cut ∈ dropped t, cut.Covers place

theorem keywordsDropped_iff : KeywordsDropped t ↔
    ∀ n ≤ t.length, wordMayBegin (t.take n).getLast? = true →
      ∀ rest ∈ keyword.after? (t.drop n), rest.head?.any isBlank = true →
        ∃ cut ∈ dropped t,
          cut.Covers ⟨Text.byteSize (t.take n), Text.byteSize (t.take n ++ keyword)⟩ := by
  constructor
  · intro all n _ opens rest found behind
    obtain ⟨c, first, blank⟩ := (Option.any_eq_true _ _).mp behind
    obtain ⟨after, rfl⟩ := List.head?_eq_some_iff.mp first
    refine all _ ⟨t.take n, c, after, ?_, opens, blank, rfl⟩
    rw [Text.after?_eq_some_iff.mp found, List.take_append_drop]
  · rintro positions place ⟨lead, c, after, rfl, opens, blank, rfl⟩
    have here := positions lead.length (by simp)
    rw [List.drop_left, List.take_left] at here
    exact here opens _ (Text.after?_eq_some_iff.mpr rfl) blank

instance (t : Text) : Decidable (KeywordsDropped t) :=
  decidable_of_iff' _ keywordsDropped_iff

end ImportStatement

namespace Rule

open ImportStatement

/-- If every keyword belongs to a statement that is dropped, none is left, and a second removal
finds nothing. -/
theorem stripImports_keywords {t : Text} (all : KeywordsDropped t) :
    (∀ place, ¬ KeywordAt (stripImports.apply t).text place) ∧
      stripImports.apply (stripImports.apply t).text = ⟨(stripImports.apply t).text, 0⟩ := by
  have none_left : ∀ place, ¬ KeywordAt (stripImports.apply t).text place := by
    rintro place ⟨front, c, after, whole, starts, blank, _⟩
    have leftmost := Pattern.leftmost_cuts Pattern.importStatement
      (List.getLast?_nil : ([] : Text).getLast? = none) t
    obtain ⟨source, here, _, uncovered⟩ := keywordAt_of_fill leftmost rfl whole starts blank
    rw [List.nil_append, Pattern.source_cuts] at here
    obtain ⟨cut, member, inside⟩ := all source here
    exact uncovered cut member inside
  have unmatched : (stripImports.apply (stripImports.apply t).text).count = 0 := by
    rw [count_stripImports_eq_zero_iff]
    intro stands
    obtain ⟨place, here⟩ := stands.keywordAt
    exact none_left place here
  have kept := text_apply_of_count_eq_zero unmatched
  refine ⟨none_left, ?_⟩
  calc stripImports.apply (stripImports.apply t).text
    _ = ⟨(stripImports.apply (stripImports.apply t).text).text,
          (stripImports.apply (stripImports.apply t).text).count⟩ := rfl
    _ = ⟨(stripImports.apply t).text, 0⟩ := by rw [kept, unmatched]

/-- The letters of the keyword begin a word, stand in a path, and are divided by a statement. -/
theorem stripImports_keywords_of_path :
    let t := "important imp;import \"a\";ort import weak\n\"import b\" ;".toList
    KeywordsDropped t ∧ (stripImports.apply t).text = "important imp;ort ".toList ∧
      (∀ place, ¬ KeywordAt (stripImports.apply t).text place) ∧
      stripImports.apply (stripImports.apply t).text = ⟨(stripImports.apply t).text, 0⟩ := by
  intro t
  have all : KeywordsDropped t := by decide +kernel
  exact ⟨all, by decide +kernel, stripImports_keywords all⟩

end Rule

end ProtoPrep
