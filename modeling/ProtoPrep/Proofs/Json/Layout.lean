import Mathlib.Data.List.TakeWhile
import ProtoPrep.Json.Read

/-!
# The layout of JSON texts

White space may stand before and after each token. Between the brackets of a list or
an object stand its items, and a comma before each of them but the first. What an
item looks like is a parameter, so one layout serves lists and objects of all kinds.

A numeral is the only token that does not show where it ends: it ends where the text
cannot go on with it.
-/

namespace ProtoPrep.Json

def spaces : List Char :=
  [' ', '\n', '\t', '\r']

/-- White space, possibly none. -/
def IsSpacing (s : Text) : Prop :=
  ∀ c ∈ s, c ∈ spaces

/-- What stands before an item: white space, with a comma in it unless the item is the first. -/
inductive Gap : Bool → Text → Prop where
  | first {space : Text} : IsSpacing space → Gap true space
  | later {before after : Text} : IsSpacing before → IsSpacing after →
      Gap false (before ++ ',' :: after)

/-- The items of a list or an object that are still to come, through its closing bracket. The
first argument says whether no item came before. -/
inductive Items {ι : Type} (item : ι → Text → Prop) (closing : Char) :
    Bool → List ι → Text → Prop where
  | closed {first : Bool} {space : Text} : IsSpacing space →
      Items item closing first [] (space ++ [closing])
  | item {first : Bool} {gap s t : Text} {i : ι} {is : List ι} : Gap first gap → item i s →
      Items item closing false is t → Items item closing first (i :: is) (gap ++ (s ++ t))

/-- A text that begins with a token, which does not close a list. -/
def OpensItem (t : Text) : Prop :=
  ∃ c rest, t = c :: rest ∧ c ∉ spaces ∧ c ≠ ']'

/-- A text that does not go on with the numeral before it. -/
def Delimited (t : Text) : Prop :=
  ∀ c ∈ t.head?, c.isDigit = false ∧ c ≠ '.' ∧ c ≠ 'e' ∧ c ≠ 'E'

theorem isSpace_iff {c : Char} : isSpace c = true ↔ c ∈ spaces := by
  simp [isSpace, spaces, or_assoc]

theorem IsSpacing.nil : IsSpacing [] :=
  nofun

theorem IsSpacing.append {s t : Text} (hs : IsSpacing s) (ht : IsSpacing t) :
    IsSpacing (s ++ t) :=
  fun c member => (List.mem_append.mp member).elim (hs c) (ht c)

theorem skipSpace_append {space : Text} (spacing : IsSpacing space) (t : Text) :
    skipSpace (space ++ t) = skipSpace t :=
  List.dropWhile_append_of_pos fun c member => isSpace_iff.mpr (spacing c member)

theorem skipSpace_cons {c : Char} (token : c ∉ spaces) (rest : Text) :
    skipSpace (c :: rest) = c :: rest :=
  List.dropWhile_cons_of_neg fun space => token (isSpace_iff.mp space)

theorem skipSpace_eq_nil_iff {t : Text} : skipSpace t = [] ↔ IsSpacing t := by
  rw [skipSpace, List.dropWhile_eq_nil_iff]
  exact forall₂_congr fun _ _ => isSpace_iff

/-- The white space before the first token. -/
theorem exists_space_of_skipSpace {t rest : Text} (h : skipSpace t = rest) :
    ∃ space, IsSpacing space ∧ t = space ++ rest :=
  ⟨t.takeWhile isSpace, fun _ member => isSpace_iff.mp (List.mem_takeWhile_imp member),
    h ▸ List.takeWhile_append_dropWhile.symm⟩

/-- A reader of a token looks at the first character behind white space. -/
theorem exists_token {α : Type} {stop : Stop} {read : Char → Text → Except Stop α} {t : Text}
    {a : α} (h : (match skipSpace t with
      | [] => Except.error stop
      | c :: rest => read c rest) = .ok a) :
    ∃ space c rest, IsSpacing space ∧ t = space ++ c :: rest ∧ read c rest = .ok a := by
  split at h
  · cases h
  · rename_i c rest first
    obtain ⟨space, spacing, whole⟩ := exists_space_of_skipSpace first
    exact ⟨space, c, rest, spacing, whole, h⟩

theorem OpensItem.append {t : Text} (h : OpensItem t) (rest : Text) : OpensItem (t ++ rest) := by
  obtain ⟨c, r, rfl, token, opens⟩ := h
  exact ⟨c, r ++ rest, rfl, token, opens⟩

theorem OpensItem.skipSpace {t : Text} (h : OpensItem t) : skipSpace t = t := by
  obtain ⟨c, r, rfl, token, -⟩ := h
  exact skipSpace_cons token r

theorem Delimited.cons {c : Char} (h : c ∈ spaces ∨ c ∈ [',', ':', ']', '\x7d']) (t : Text) :
    Delimited (c :: t) := by
  have all : ∀ d ∈ spaces ++ [',', ':', ']', '\x7d'],
      d.isDigit = false ∧ d ≠ '.' ∧ d ≠ 'e' ∧ d ≠ 'E' := by simp [spaces]
  rintro d ⟨⟩
  exact all c (List.mem_append.mpr h)

/-- White space ends a numeral, and where there is none the text behind must. -/
theorem IsSpacing.delimited_append {space t : Text} (spacing : IsSpacing space)
    (h : Delimited t) : Delimited (space ++ t) := by
  cases space with
  | nil => exact h
  | cons c rest => exact .cons (.inl (spacing c List.mem_cons_self)) _

theorem IsSpacing.delimited {space : Text} (spacing : IsSpacing space) : Delimited space := by
  have stops : Delimited [] := by simp [Delimited]
  have whole := spacing.delimited_append stops
  rwa [List.append_nil] at whole

/-- What follows an item ends a numeral. -/
theorem Items.delimited {ι : Type} {item : ι → Text → Prop} {closing : Char} {is : List ι}
    {t : Text} (h : Items item closing false is t) (closes : closing ∈ [']', '\x7d'])
    (rest : Text) : Delimited (t ++ rest) := by
  cases h with
  | closed spacing =>
    rw [List.append_assoc]
    exact spacing.delimited_append
      (.cons (.inr (List.mem_cons_of_mem _ (List.mem_cons_of_mem _ closes))) _)
  | item gap =>
    cases gap with
    | later spacing =>
      simp only [List.append_assoc, List.cons_append]
      exact spacing.delimited_append (.cons (.inr List.mem_cons_self) _)

end ProtoPrep.Json
