import ProtoPrep.Proofs.Schema.Region
import ProtoPrep.Proofs.Text.Bytes
import ProtoPrep.Proofs.Text.Lines
import ProtoPrep.Schema.GatewayOption

/-!
# What the removal of the gateway option leaves

Cutting out the region that the scan finds leaves the lines before it and the lines
behind it as they are, and less text than before. The braces of the lines that go are
not always balanced: if the opening line came more than once, what stood open before
the region is left behind.
-/

namespace ProtoPrep

open scoped List

namespace GatewayOption

variable {t : Text}

def keptLines (t : Text) : List Text :=
  match region? t.lines with
  | some region => region.cutFrom t.lines
  | none => t.lines

theorem keptLines_sublist (t : Text) : keptLines t <+ t.lines := by
  rw [keptLines]
  cases found : region? t.lines with
  | none => exact List.Sublist.refl _
  | some region =>
    have bounds := Region.find?_bounds found
    exact Region.cutFrom_sublist (by omega)

theorem remove_fst (t : Text) : (remove t).1 = Text.unlines (keptLines t) := by
  rw [remove, keptLines]
  cases region? t.lines with
  | none => exact (Text.unlines_lines t).symm
  | some region => rfl

theorem remove_snd (t : Text) : (remove t).2 = region? t.lines := by
  rw [remove]
  cases region? t.lines with
  | none => rfl
  | some region => rfl

theorem remove_sublist (t : Text) : (remove t).1 <+ t := by
  have kept := Text.unlines_sublist (keptLines_sublist t)
  rwa [Text.unlines_lines, ← remove_fst] at kept

theorem remove_of_none (absent : region? t.lines = none) : (remove t).1 = t := by
  rw [remove_fst, keptLines, absent]
  exact Text.unlines_lines t

variable {region : Region}

theorem keptLines_eq (found : region? t.lines = some region) :
    keptLines t = region.cutFrom t.lines := by
  rw [keptLines, found]

/-- A region has two lines at least, so a line feed goes along with it. -/
theorem remove_length_lt (found : region? t.lines = some region) :
    (remove t).1.length < t.length := by
  have bounds := Region.find?_bounds found
  have lengths := Region.length_cutFrom t.lines (by omega) bounds.2
  rw [← keptLines_eq found, Region.length] at lengths
  have shorter := Text.unlines_length_lt (keptLines_sublist t) (by omega) (by omega)
  rwa [Text.unlines_lines, ← remove_fst] at shorter

theorem remove_byteSize_lt (found : region? t.lines = some region) :
    (remove t).1.byteSize < t.byteSize := by
  have shorter := remove_length_lt found
  have bytes := Text.byteSize_add_length_le (remove_sublist t)
  omega

/-- As long as a line stays, the lines of the new text are the lines that stay. -/
theorem lines_remove (some_line : keptLines t ≠ []) : (remove t).1.lines = keptLines t := by
  rw [remove_fst]
  refine Text.lines_unlines some_line ?_
  intro l member
  exact Text.lineFeed_not_mem ((keptLines_sublist t).subset member)

/-- No line stays exactly if the region is the whole text. -/
theorem keptLines_eq_nil_iff (found : region? t.lines = some region) :
    keptLines t = [] ↔ region = ⟨0, t.lines.length⟩ := by
  have bounds := Region.find?_bounds found
  have lengths := Region.length_cutFrom t.lines (by omega) bounds.2
  rw [keptLines_eq found, ← List.length_eq_zero_iff]
  rw [Region.length] at lengths
  constructor
  · intro none_kept
    cases region
    dsimp only at *
    congr <;> omega
  · rintro rfl
    dsimp only at *
    omega

/-- The removal takes out the lines of the region and leaves every other line as it is. Only if the
region is the whole text there is no line left, and so the text is empty. The region is the one
that the scan of the lines finds. -/
theorem remove_exact (t : Text) :
    (remove t).2 = region? t.lines ∧
    match (remove t).2 with
    | none => (remove t).1 = t
    | some region =>
      (region ≠ ⟨0, t.lines.length⟩ →
        (remove t).1.lines = t.lines.take region.start ++ t.lines.drop region.stop ∧
        (remove t).1.lines.length + region.length = t.lines.length) ∧
      (region = ⟨0, t.lines.length⟩ → (remove t).1 = []) ∧
      (remove t).1.length < t.length ∧ (remove t).1.byteSize < t.byteSize := by
  refine ⟨remove_snd t, ?_⟩
  rw [remove_snd]
  cases found : region? t.lines with
  | none => exact remove_of_none found
  | some region =>
    have bounds := Region.find?_bounds found
    refine ⟨?_, ?_, remove_length_lt found, remove_byteSize_lt found⟩
    · intro leftover
      have kept := lines_remove (mt (keptLines_eq_nil_iff found).mp leftover)
      rw [keptLines_eq found] at kept
      rw [kept]
      exact ⟨rfl, Region.length_cutFrom t.lines (by omega) bounds.2⟩
    · intro whole
      rw [remove_fst, (keptLines_eq_nil_iff found).mpr whole, Text.unlines_nil]

/-- The carriage return stays on its line, and so does the empty line at the end. -/
theorem remove_exact_of_carriage_returns :
    let t : Text := "a\r\noption (".toList ++ name ++ ") = \x7b\r\n\x7d;\r\n".toList
    remove t = ("a\r\n".toList, some ⟨1, 3⟩) ∧ region? t.lines = some ⟨1, 3⟩ ∧
      (remove t).1.lines = t.lines.take 1 ++ t.lines.drop 3 ∧
      (remove t).1.lines.length + 2 = t.lines.length ∧ (remove t).1.length < t.length := by
  intro t
  have removed : remove t = ("a\r\n".toList, some ⟨1, 3⟩) := by decide
  have parts := remove_exact t
  rw [removed] at parts ⊢
  obtain ⟨found, apart, -, shorter, -⟩ := parts
  obtain ⟨lines, fewer⟩ := apart (by decide)
  exact ⟨rfl, found.symm, lines, fewer, shorter⟩

/-- A block that is the whole text. -/
example : remove ("option(".toList ++ name ++ ") = \x7b\n\x7d;".toList) = ([], some ⟨0, 2⟩) := by
  decide

theorem braceBalance_unlines (ls : List Text) :
    braceBalance (Text.unlines ls) = (ls.map braceBalance).sum := by
  induction ls with
  | nil => rfl
  | cons l ls ih =>
    cases ls with
    | nil => simp
    | cons m ls =>
      have feed : braceBalance ('\n' :: Text.unlines (m :: ls)) =
          braceBalance (Text.unlines (m :: ls)) := by
        simp [braceBalance]
      rw [Text.unlines_cons_cons, braceBalance_append, feed, ih, ← List.sum_cons, ← List.map_cons]

theorem braceBalance_remove (found : region? t.lines = some region) :
    braceBalance (remove t).1 + region.balance t.lines = braceBalance t := by
  have bounds := Region.find?_bounds found
  have whole := braceBalance_unlines t.lines
  rw [Text.unlines_lines] at whole
  rw [remove_fst, keptLines_eq found, braceBalance_unlines, whole]
  exact Region.sum_cutFrom t.lines (by omega)

/-- The lines before the region stay. -/
theorem covered_lines_remove (found : region? t.lines = some region) (first : Nat) :
    Region.covered ⟨first, region.start⟩ (remove t).1.lines =
      Region.covered ⟨first, region.start⟩ t.lines := by
  have bounds := Region.find?_bounds found
  by_cases none_kept : keptLines t = []
  · rw [(keptLines_eq_nil_iff found).mp none_kept]
    simp [Region.covered]
  · rw [lines_remove none_kept, keptLines_eq found]
    exact Region.covered_cutFrom first (by omega)

/-- The removal adds to the balance what stands open on the lines from the first opening line up to
the region. They stay, but what closes them is gone. -/
theorem remove_braceBalance {out : Text} (h : remove t = (out, some region)) :
    ∃ first, IsLeast {n | Region.OpensAt opens t.lines n} first ∧ first ≤ region.start ∧
      braceBalance out = braceBalance t + Region.balance ⟨first, region.start⟩ t.lines ∧
      Region.covered ⟨first, region.start⟩ out.lines =
        Region.covered ⟨first, region.start⟩ t.lines ∧
      ((∀ n < region.start, ¬ Region.OpensAt opens t.lines n) →
        braceBalance out = braceBalance t) := by
  have found : region? t.lines = some region := by rw [← remove_snd, h]
  have result : (remove t).1 = out := by rw [h]
  subst result
  obtain ⟨first, last, block, stop⟩ := Region.find?_eq_some_iff.mp found
  have begins : first ≤ region.start := block.begins.2 block.latest.1.1
  -- The count since the first opening line is zero at the end of the region, so what the region
  -- takes away is what the lines before it have opened.
  have level : Region.balance ⟨first, region.stop⟩ t.lines = 0 := by
    rw [stop]
    exact block.closes.1.level
  have bounds := Region.find?_bounds found
  have parts := Region.balance_add t.lines begins (show region.start ≤ region.stop by omega)
  have total := braceBalance_remove found
  have change : braceBalance (remove t).1 =
      braceBalance t + Region.balance ⟨first, region.start⟩ t.lines := by
    change _ + Region.balance ⟨region.start, region.stop⟩ t.lines = _ at total
    omega
  refine ⟨first, block.begins, begins, change, covered_lines_remove found first, ?_⟩
  intro silent
  have same : first = region.start := by
    by_cases before : first < region.start
    · exact absurd block.begins.1 (silent first before)
    · omega
  rw [change, same, Region.balance_self, Int.add_zero]

/-- A block whose opening line comes twice leaves the first of the two, with its brace. -/
theorem remove_braceBalance_of_repeated :
    let line : Text := "option(".toList ++ name ++ ") = \x7b".toList
    let t : Text := line ++ '\n' :: line ++ "\n\x7d;\n\x7d;".toList
    remove t = (line, some ⟨1, 4⟩) ∧
      ∃ first, IsLeast {n | Region.OpensAt opens t.lines n} first ∧ first ≤ 1 ∧
        braceBalance line = braceBalance t + Region.balance ⟨first, 1⟩ t.lines ∧
        Region.covered ⟨first, 1⟩ line.lines = Region.covered ⟨first, 1⟩ t.lines ∧
        ((∀ n < 1, ¬ Region.OpensAt opens t.lines n) → braceBalance line = braceBalance t) := by
  intro line t
  have removed : remove t = (line, some ⟨1, 4⟩) := by decide
  exact ⟨removed, remove_braceBalance removed⟩

end GatewayOption

end ProtoPrep
