import Mathlib.Data.List.Basic
import Mathlib.Data.List.Flatten
import ProtoPrep.Text.Basic

/-!
# Lines taken out of a text

Cutting a text at its line feeds and joining the lines again gives the text back, and
lines without a line feed are the lines of the text they are joined to. Joining fewer of
the lines gives a subsequence, and a shorter text as long as there was more than one
line to begin with.
-/

namespace ProtoPrep.Text

open scoped List

variable {ls ms : List Text}

theorem unlines_lines (t : Text) : unlines t.lines = t :=
  List.intercalate_splitOn '\n'

@[simp] theorem unlines_nil : unlines [] = [] := rfl

@[simp] theorem unlines_singleton (l : Text) : unlines [l] = l :=
  List.intercalate_singleton

@[simp] theorem unlines_cons_cons (l m : Text) (ls : List Text) :
    unlines (l :: m :: ls) = l ++ '\n' :: unlines (m :: ls) := by
  simp [unlines, List.intercalate_cons_cons]

/-- An empty list of lines would put no line feed at the border. -/
theorem unlines_append (some_line : ls ≠ []) (others : ms ≠ []) :
    unlines (ls ++ ms) = unlines ls ++ '\n' :: unlines ms := by
  induction ls with
  | nil => exact absurd rfl some_line
  | cons l ls ih =>
    cases ls with
    | nil =>
      obtain ⟨m, ms, rfl⟩ := List.exists_cons_of_ne_nil others
      rw [List.singleton_append, unlines_cons_cons, unlines_singleton]
    | cons k ls =>
      have later := ih (List.cons_ne_nil k ls)
      rw [List.cons_append] at later ⊢
      rw [List.cons_append, unlines_cons_cons, later, unlines_cons_cons, List.append_assoc,
        List.cons_append]

/-- Closed by one more line feed, the joined lines are the lines each closed by its own. -/
theorem unlines_append_lineFeed (some_line : ls ≠ []) :
    unlines ls ++ ['\n'] = ls.flatMap (· ++ ['\n']) := by
  induction ls with
  | nil => exact absurd rfl some_line
  | cons l ls ih =>
    cases ls with
    | nil => simp
    | cons m ls =>
      rw [unlines_cons_cons, List.flatMap_cons, ← ih (List.cons_ne_nil m ls)]
      simp

theorem lines_ne_nil (t : Text) : t.lines ≠ [] :=
  List.splitOn_ne_nil '\n' t

theorem lines_cons (c : Char) (t : Text) : lines (c :: t) =
    if c = '\n' then [] :: t.lines else t.lines.modifyHead (c :: ·) := by
  simp [lines, List.splitOn_cons_eq_if_modifyHead]

/-- A line feed ends a line, whatever stands on its two sides. -/
theorem lines_append_lineFeed (s t : Text) : lines (s ++ '\n' :: t) = s.lines ++ t.lines :=
  List.splitOn_append_cons_self s t

theorem length_lines (t : Text) : t.lines.length = t.count '\n' + 1 := by
  induction t with
  | nil => rfl
  | cons c t ih =>
    rw [lines_cons, List.count_cons]
    by_cases ends : c = '\n'
    · simp [ends, ih]
    · simp [ends, ih]

theorem lineFeed_not_mem {t l : Text} (h : l ∈ t.lines) : '\n' ∉ l := by
  induction t generalizing l with
  | nil =>
    obtain rfl : l = [] := by simpa [lines] using h
    exact List.not_mem_nil
  | cons c t ih =>
    rw [lines_cons] at h
    by_cases ends : c = '\n'
    · rw [if_pos ends, List.mem_cons] at h
      rcases h with rfl | later
      · exact List.not_mem_nil
      · exact ih later
    · rw [if_neg ends] at h
      obtain ⟨first, others, whole⟩ := List.exists_cons_of_ne_nil (lines_ne_nil t)
      rw [whole, List.modifyHead_cons, List.mem_cons] at h
      rcases h with rfl | later
      · rintro (_ | ⟨_, member⟩)
        · exact ends rfl
        · exact ih (whole ▸ List.mem_cons_self) member
      · exact ih (whole ▸ List.mem_cons_of_mem first later)

/-- No line feed may stand inside a line, and no line at all would be read as one empty line. -/
theorem lines_unlines (some_line : ls ≠ []) (unbroken : ∀ l ∈ ls, '\n' ∉ l) :
    (unlines ls).lines = ls :=
  List.splitOn_intercalate '\n' unbroken some_line

theorem lines_of_unbroken {t : Text} (unbroken : '\n' ∉ t) : t.lines = [t] := by
  have single : ∀ l ∈ [t], '\n' ∉ l := by simpa using unbroken
  simpa using lines_unlines (List.cons_ne_nil t []) single

theorem unlines_sublist (h : ls <+ ms) : unlines ls <+ unlines ms := by
  by_cases empty : ls = []
  · subst empty
    exact List.nil_sublist _
  · have others : ms ≠ [] := by
      rintro rfl
      exact empty (List.sublist_nil.mp h)
    rw [← List.append_sublist_append_right ['\n'], unlines_append_lineFeed empty,
      unlines_append_lineFeed others]
    exact h.flatMap _

/-- Each line left out takes one line feed with it at least. -/
theorem length_flatMap_lineFeed (h : ls <+ ms) :
    (ls.flatMap (· ++ ['\n'])).length + ms.length ≤
      (ms.flatMap (· ++ ['\n'])).length + ls.length := by
  induction h with
  | slnil => exact Nat.le_refl _
  | cons l _ ih =>
    simp only [List.flatMap_cons, List.length_append, List.length_cons]
    omega
  | cons_cons l _ ih =>
    simp only [List.flatMap_cons, List.length_append, List.length_cons]
    omega

/-- A line that is left out takes its line feed along, unless it was the only one. -/
theorem unlines_length_lt (h : ls <+ ms) (fewer : ls.length < ms.length)
    (several : 1 < ms.length) : (unlines ls).length < (unlines ms).length := by
  have lost := length_flatMap_lineFeed h
  have others : ms ≠ [] := List.ne_nil_of_length_pos (by omega)
  have long := congrArg List.length (unlines_append_lineFeed others)
  rw [List.length_append, List.length_singleton] at long
  cases ls with
  | nil =>
    simp only [List.flatMap_nil, List.length_nil] at lost
    rw [unlines_nil, List.length_nil]
    omega
  | cons l ls =>
    have short := congrArg List.length (unlines_append_lineFeed (List.cons_ne_nil l ls))
    rw [List.length_append, List.length_singleton] at short
    omega

end ProtoPrep.Text
