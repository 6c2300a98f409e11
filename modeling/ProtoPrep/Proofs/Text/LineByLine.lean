import Mathlib.Algebra.GroupWithZero.Nat
import ProtoPrep.Proofs.Text.Lines
import ProtoPrep.Proofs.Text.Literal

/-!
# Work line by line

Work is done line by line if what it makes of a text are its results on the lines, joined
by line feeds. The same can be said without lines: both sides of every line feed are
worked on by themselves. In this form it passes to two steps in a row, although the first
one may write line feeds, so that the second does not see the lines of the text. A
replacement works line by line exactly if what it looks for holds no line feed.
-/

namespace ProtoPrep

/-- What is made of a text are the results on its lines, joined by line feeds, and what is counted
in it is counted on its lines. -/
structure LineByLine (work : Text → Edit) : Prop where
  text_eq : ∀ t, (work t).text = Text.unlines (t.lines.map fun l => (work l).text)
  count_eq : ∀ t, (work t).count = (t.lines.map fun l => (work l).count).sum

/-- Both sides of a line feed are worked on by themselves, whatever stands on them. -/
def Splits (work : Text → Edit) : Prop :=
  ∀ s t, work (s ++ '\n' :: t) =
    ⟨(work s).text ++ '\n' :: (work t).text, (work s).count + (work t).count⟩

open Text

variable {work next : Text → Edit} {ls : List Text}

/-- The parts may hold line feeds of their own, as results of an earlier step do. -/
theorem Splits.unlines (h : Splits work) (some_line : ls ≠ []) :
    work (unlines ls) =
      ⟨Text.unlines (ls.map fun l => (work l).text), (ls.map fun l => (work l).count).sum⟩ := by
  induction ls with
  | nil => exact absurd rfl some_line
  | cons l ls ih =>
    cases ls with
    | nil => simp
    | cons m ls =>
      have later := ih (List.cons_ne_nil m ls)
      rw [unlines_cons_cons, h, later]
      simp only [List.map_cons, unlines_cons_cons, List.sum_cons]

/-- The lines of a text on two sides of a line feed are the lines of both sides. -/
theorem LineByLine.splits (h : LineByLine work) : Splits work := by
  intro s t
  have some_result (t : Text) : (t.lines.map fun l => (work l).text) ≠ [] :=
    mt List.map_eq_nil_iff.mp (lines_ne_nil t)
  have texts := h.text_eq (s ++ '\n' :: t)
  have counts := h.count_eq (s ++ '\n' :: t)
  rw [lines_append_lineFeed, List.map_append, unlines_append (some_result s) (some_result t),
    ← h.text_eq, ← h.text_eq] at texts
  rw [lines_append_lineFeed, List.map_append, List.sum_append, ← h.count_eq, ← h.count_eq] at counts
  rw [← texts, ← counts]

theorem lineByLine_iff : LineByLine work ↔ Splits work := by
  constructor
  · exact LineByLine.splits
  · intro h
    have whole (t : Text) := h.unlines (lines_ne_nil t)
    simp only [unlines_lines] at whole
    exact ⟨fun t => congrArg Edit.text (whole t), fun t => congrArg Edit.count (whole t)⟩

namespace LineByLine

theorem unchanged : LineByLine fun t => ⟨t, 0⟩ :=
  lineByLine_iff.mpr fun _ _ => rfl

/-- The line feeds that the first step writes divide the work of the second one only further. -/
theorem followedBy (first : LineByLine work) (second : LineByLine next) :
    LineByLine fun t => ⟨(next (work t).text).text,
      (work t).count + (next (work t).text).count⟩ := by
  rw [lineByLine_iff] at *
  intro s t
  simp only [first s t, second (work s).text (work t).text, Nat.add_add_add_comm]

/-- Nothing is counted in a text if nothing is counted on a line. -/
theorem count_eq_zero (h : LineByLine work) (quiet : ∀ l, '\n' ∉ l → (work l).count = 0)
    (t : Text) :
    (work t).count = 0 := by
  rw [h.count_eq, List.sum_eq_zero_iff_forall_eq_nat, List.forall_mem_map]
  intro l line
  exact quiet l (lineFeed_not_mem line)

end LineByLine

/-- A text without a line feed does not stand across one. -/
theorem splits_replace {lead : Text} (unbroken : '\n' ∉ lead) (new : Text) :
    Splits (replace lead new) := by
  intro s t
  by_cases empty : lead = []
  · subst empty
    simp only [replace_empty, List.flatMap_append, List.flatMap_cons, List.append_assoc,
      List.cons_append, List.nil_append, List.length_append, List.length_cons]
    rw [Nat.add_right_comm]
  · exact replace_append_cons empty unbroken new s t

/-- A text with a line feed is found nowhere on a line, but it is found in itself. -/
theorem lineByLine_replace_iff (lead new : Text) :
    LineByLine (replace lead new) ↔ '\n' ∉ lead := by
  constructor
  · intro h broken
    have nonempty : lead ≠ [] := List.ne_nil_of_mem broken
    have quiet (l : Text) (unbroken : '\n' ∉ l) : (replace lead new l).count = 0 :=
      (count_replace_eq_zero_iff nonempty new l).mpr fun inside => unbroken (inside.subset broken)
    have unmatched := h.count_eq_zero quiet lead
    exact (count_replace_eq_zero_iff nonempty new lead).mp unmatched List.infix_rfl
  · intro unbroken
    exact lineByLine_iff.mpr (splits_replace unbroken new)

end ProtoPrep
