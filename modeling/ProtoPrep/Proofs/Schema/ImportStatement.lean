import Mathlib.Data.List.TakeWhile
import ProtoPrep.Proofs.Text.Cuts
import ProtoPrep.Schema.ImportStatement

/-!
# The written form of an import statement

The recogniser of import statements accepts exactly the written forms below, and
leaves what follows them. A form holds two double quotes, those around the path.
-/

namespace ProtoPrep

namespace ImportStatement

def IsSpace (s : Text) : Prop :=
  s ≠ [] ∧ ∀ c ∈ s, isBlank c = true

def IsModifier (s : Text) : Prop :=
  s = [] ∨ ∃ word ∈ modifiers, ∃ space, IsSpace space ∧ s = word ++ space

inductive IsStatement : Text → Prop where
  | intro {space modifier path blanks : Text} (spaced : IsSpace space)
      (modified : IsModifier modifier) (unquoted : '"' ∉ path)
      (blank : ∀ c ∈ blanks, isBlank c = true) :
      IsStatement ("import".toList ++ space ++ modifier ++ '"' :: path ++ '"' :: blanks ++ [';'])

theorem dropBlanks_append {blanks rest : Text} (blank : ∀ c ∈ blanks, isBlank c = true)
    (stops : ∀ c, rest.head? = some c → isBlank c = false) :
    Text.dropBlanks (blanks ++ rest) = rest := by
  rw [Text.dropBlanks, List.dropWhile_append_of_pos blank]
  cases rest with
  | nil => rfl
  | cons c rest => simp [stops c rfl]

theorem afterBlanks?_append {space rest : Text} (spaced : IsSpace space)
    (stops : ∀ c, rest.head? = some c → isBlank c = false) :
    Text.afterBlanks? (space ++ rest) = some rest := by
  obtain ⟨nonempty, blank⟩ := spaced
  cases space with
  | nil => exact absurd rfl nonempty
  | cons c space =>
    rw [List.cons_append, Text.afterBlanks?, if_pos (blank c List.mem_cons_self)]
    exact congrArg some
      (dropBlanks_append (fun d hd => blank d (List.mem_cons_of_mem c hd)) stops)

theorem exists_space_of_afterBlanks? {t rest : Text} (h : t.afterBlanks? = some rest) :
    ∃ space, IsSpace space ∧ space ++ rest = t := by
  cases t with
  | nil => cases h
  | cons c r =>
    rw [Text.afterBlanks?] at h
    split at h
    · rename_i blank
      cases h
      refine ⟨c :: r.takeWhile isBlank, ⟨List.cons_ne_nil _ _, ?_⟩, ?_⟩
      · intro d hd
        rcases List.mem_cons.mp hd with rfl | later
        · exact blank
        · exact List.mem_takeWhile_imp later
      · rw [Text.dropBlanks, List.cons_append, List.takeWhile_append_dropWhile]
    · cases h

/-- A word that is no modifier, or that no blank follows, is not taken away. -/
theorem exists_modifier (t : Text) :
    ∃ modifier, IsModifier modifier ∧ modifier ++ afterModifier t = t := by
  rw [afterModifier]
  cases found : modifiers.findSome? fun word => (word.after? t).bind Text.afterBlanks? with
  | none => exact ⟨[], Or.inl rfl, rfl⟩
  | some rest =>
    obtain ⟨word, known, read⟩ := List.exists_of_findSome?_eq_some found
    obtain ⟨r, hr, hs⟩ := Option.bind_eq_some_iff.mp read
    obtain ⟨space, spaced, rfl⟩ := exists_space_of_afterBlanks? hs
    refine ⟨word ++ space, Or.inr ⟨word, known, space, spaced, rfl⟩, ?_⟩
    rw [Option.getD_some, List.append_assoc]
    exact Text.after?_eq_some_iff.mp hr

/-- The path begins with a quote, which neither a modifier nor a blank does. -/
theorem afterModifier_append {modifier : Text} (modified : IsModifier modifier) (rest : Text) :
    afterModifier (modifier ++ '"' :: rest) = '"' :: rest := by
  rcases modified with rfl | ⟨word, known, space, spaced, rfl⟩
  · have unquoted : ∀ word ∈ modifiers, word.after? ('"' :: rest) = none := by
      intro word known
      rcases List.mem_cons.mp known with rfl | known
      · rfl
      · obtain rfl := List.mem_singleton.mp known
        rfl
    have none_found : modifiers.findSome? (fun word =>
        (word.after? ('"' :: rest)).bind Text.afterBlanks?) = none := by
      rw [List.findSome?_eq_none_iff]
      intro word known
      rw [unquoted word known, Option.bind_none]
    rw [List.nil_append, afterModifier, none_found, Option.getD_none]
  · have read : (word.after? (word ++ (space ++ '"' :: rest))).bind Text.afterBlanks? =
        some ('"' :: rest) := by
      rw [Text.after?_eq_some_iff.mpr rfl, Option.bind_some]
      exact afterBlanks?_append spaced fun c first => by cases first; decide
    rw [List.append_assoc, afterModifier]
    rcases List.mem_cons.mp known with rfl | known
    · rw [modifiers, List.findSome?_cons, read, Option.getD_some]
    · obtain rfl := List.mem_singleton.mp known
      have other : Text.after? "public".toList ("weak".toList ++ (space ++ '"' :: rest)) = none :=
        rfl
      rw [modifiers, List.findSome?_cons, other, Option.bind_none]
      dsimp only
      rw [List.findSome?_cons, read, Option.getD_some]

theorem afterPath?_eq_some_iff {t rest : Text} :
    afterPath? t = some rest ↔ ∃ path, '"' ∉ path ∧ '"' :: path ++ '"' :: rest = t := by
  constructor
  · intro h
    simp only [afterPath?] at h
    split at h
    · rename_i r
      split at h
      · cases h
      · rename_i c after left
        cases h
        have whole := List.takeWhile_append_dropWhile (p := (· ≠ '"')) (l := r)
        have closing : c = '"' := by
          have stop := List.head?_dropWhile_not (fun d : Char => d ≠ '"') r
          rw [left] at stop
          simpa using stop
        refine ⟨r.takeWhile (· ≠ '"'), fun h => by simpa using List.mem_takeWhile_imp h, ?_⟩
        rw [left, closing] at whole
        simpa using whole
    · cases h
  · rintro ⟨path, unquoted, rfl⟩
    have skipped : (path ++ '"' :: rest).dropWhile (· ≠ '"') = '"' :: rest := by
      rw [List.dropWhile_append_of_pos]
      · simp
      · intro c hc
        simpa using fun same : c = '"' => unquoted (same ▸ hc)
    rw [List.cons_append, afterPath?, skipped]

theorem afterSemicolon?_eq_some_iff {t rest : Text} :
    afterSemicolon? t = some rest ↔
      ∃ blanks, (∀ c ∈ blanks, isBlank c = true) ∧ blanks ++ ';' :: rest = t := by
  rw [afterSemicolon?, Text.after?_eq_some_iff, List.singleton_append]
  constructor
  · intro h
    refine ⟨t.takeWhile isBlank, fun c hc => List.mem_takeWhile_imp hc, ?_⟩
    rw [h]
    exact List.takeWhile_append_dropWhile
  · rintro ⟨blanks, blank, rfl⟩
    exact (dropBlanks_append blank fun c first => by cases first; decide).symm

/-- The recogniser reads exactly the written forms. -/
theorem rest?_eq_some_iff {t rest : Text} :
    rest? t = some rest ↔ ∃ statement, IsStatement statement ∧ statement ++ rest = t := by
  constructor
  · intro h
    obtain ⟨s, hs, hrest⟩ := Option.bind_eq_some_iff.mp h
    obtain ⟨r, hr, rfl⟩ := Option.map_eq_some_iff.mp hs
    obtain ⟨u, hu, hblanks⟩ := Option.bind_eq_some_iff.mp hr
    obtain ⟨v, hpath, hsemicolon⟩ := Option.bind_eq_some_iff.mp hrest
    obtain ⟨space, spaced, rfl⟩ := exists_space_of_afterBlanks? hblanks
    obtain ⟨modifier, modified, whole⟩ := exists_modifier r
    obtain ⟨path, unquoted, path_eq⟩ := afterPath?_eq_some_iff.mp hpath
    obtain ⟨blanks, blank, rfl⟩ := afterSemicolon?_eq_some_iff.mp hsemicolon
    refine ⟨_, .intro spaced modified unquoted blank, ?_⟩
    rw [← Text.after?_eq_some_iff.mp hu, ← whole, ← path_eq]
    simp only [List.append_assoc, List.cons_append, List.nil_append]
  · rintro ⟨statement, ⟨spaced, modified, unquoted, blank⟩, rfl⟩
    rename_i space modifier path blanks
    have stops : ∀ c, (modifier ++ '"' :: (path ++ '"' :: (blanks ++ ';' :: rest))).head? = some c →
        isBlank c = false := by
      intro c first
      rcases modified with rfl | ⟨word, known, _, _, rfl⟩
      · cases first
        decide
      · rcases List.mem_cons.mp known with rfl | known
        · cases first
          decide
        · obtain rfl := List.mem_singleton.mp known
          cases first
          decide
    have word : Text.after? "import".toList ("import".toList ++
        (space ++ (modifier ++ '"' :: (path ++ '"' :: (blanks ++ ';' :: rest))))) = some _ :=
      Text.after?_eq_some_iff.mpr rfl
    have quoted : afterPath? ('"' :: (path ++ '"' :: (blanks ++ ';' :: rest))) = some _ :=
      afterPath?_eq_some_iff.mpr ⟨path, unquoted, rfl⟩
    have closed : afterSemicolon? (blanks ++ ';' :: rest) = some _ :=
      afterSemicolon?_eq_some_iff.mpr ⟨blanks, blank, rfl⟩
    simp only [List.append_assoc, List.cons_append, List.nil_append]
    rw [rest?, word, Option.bind_some, afterBlanks?_append spaced stops, Option.map_some,
      Option.bind_some, afterModifier_append modified, quoted, Option.bind_some, closed]

theorem IsSpace.count_quote {space : Text} (spaced : IsSpace space) : space.count '"' = 0 :=
  List.count_eq_zero_of_not_mem fun h => absurd (spaced.2 '"' h) (by decide)

theorem IsModifier.count_quote {modifier : Text} (modified : IsModifier modifier) :
    modifier.count '"' = 0 := by
  rcases modified with rfl | ⟨word, known, space, spaced, rfl⟩
  · rfl
  · have plain : word.count '"' = 0 := by
      rcases List.mem_cons.mp known with rfl | known
      · decide
      · obtain rfl := List.mem_singleton.mp known
        decide
    rw [List.count_append, plain, spaced.count_quote]

/-- The quotes of a statement are those around its path. -/
theorem IsStatement.count_quote {statement : Text} (h : IsStatement statement) :
    statement.count '"' = 2 := by
  obtain ⟨spaced, modified, unquoted, blank⟩ := h
  rename_i space modifier path blanks
  have path_count := List.count_eq_zero_of_not_mem unquoted
  have blanks_count : blanks.count '"' = 0 :=
    List.count_eq_zero_of_not_mem fun h => absurd (blank '"' h) (by decide)
  simp [spaced.count_quote, modified.count_quote, path_count, blanks_count]

/-- A statement ends in the first semicolon behind its path. -/
theorem IsStatement.getLast?_eq {statement : Text} (h : IsStatement statement) :
    statement.getLast? = some ';' := by
  obtain ⟨_, _, _, _⟩ := h
  exact List.getLast?_concat

/-- A statement stands in a text: no word runs into it. -/
def StandsIn (t : Text) : Prop :=
  ∃ before statement after, t = before ++ (statement ++ after) ∧
    wordMayBegin before.getLast? = true ∧ IsStatement statement

theorem isStatement_of_mem_spans {before : Option Char} {t span : Text}
    (h : span ∈ (Pattern.importStatement.cuts before t).spans) : IsStatement span := by
  obtain ⟨_, here, rest, found⟩ := Pattern.mem_spans_cuts _ h
  obtain ⟨_, read, whole⟩ := Pattern.ofRest_at?_eq_some_iff.mp found
  obtain ⟨statement, written, same⟩ := rest?_eq_some_iff.mp read
  rwa [List.append_cancel_right (whole.trans same.symm)]

theorem count_replace_eq_zero_iff {new t : Text} :
    (Pattern.importStatement.replace new t).count = 0 ↔ ¬ StandsIn t := by
  rw [Pattern.replace, Pattern.count_cuts_eq_zero_iff]
  simp only [Pattern.importStatement, Pattern.ofRest_at?_eq_none_iff, Option.or_none]
  constructor
  · rintro unmatched ⟨before, statement, after, whole, opens, written⟩
    have unread := unmatched before (statement ++ after) whole opens
    rw [rest?_eq_some_iff.mpr ⟨statement, written, rfl⟩] at unread
    cases unread
  · intro absent lead rest whole opens
    cases read : rest? rest with
    | none => rfl
    | some after =>
      obtain ⟨statement, written, rfl⟩ := rest?_eq_some_iff.mp read
      exact absurd ⟨lead, statement, after, whole, opens, written⟩ absent

end ImportStatement

end ProtoPrep
