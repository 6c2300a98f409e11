import Mathlib.Algebra.Ring.Int.Defs
import Mathlib.Order.Bounds.Basic
import ProtoPrep.Schema.GatewayOption

/-!
# Which region the scan finds

The count of braces begins on the first opening line and never begins anew. The region
ends behind the first later line that does not open and at which the count is zero; it
begins with the last opening line before that. The lines of the region need not be
balanced for themselves: what ends it is the count since the first opening line.
-/

namespace ProtoPrep.Region

/-- The lines that a region covers. -/
def covered {α : Type} (region : Region) (lines : List α) : List α :=
  (lines.take region.stop).drop region.start

def balance (region : Region) (lines : List Text) : Int :=
  ((region.covered lines).map braceBalance).sum

theorem covered_append {α : Type} {first mid stop : Nat} (lines : List α) (early : first ≤ mid)
    (late : mid ≤ stop) :
    covered ⟨first, mid⟩ lines ++ covered ⟨mid, stop⟩ lines = covered ⟨first, stop⟩ lines := by
  have rest : lines.drop mid = (lines.drop first).drop (mid - first) := by
    rw [List.drop_drop]
    congr 1
    omega
  have number : stop - first = (mid - first) + (stop - mid) := by omega
  simp only [covered, List.drop_take]
  rw [rest, number, List.take_add]

theorem balance_add {first mid stop : Nat} (lines : List Text) (early : first ≤ mid)
    (late : mid ≤ stop) :
    balance ⟨first, mid⟩ lines + balance ⟨mid, stop⟩ lines = balance ⟨first, stop⟩ lines := by
  simp only [balance]
  rw [← List.sum_append, ← List.map_append, covered_append lines early late]

theorem balance_self (n : Nat) (lines : List Text) : balance ⟨n, n⟩ lines = 0 := by
  simp [balance, covered]

theorem balance_succ {first n : Nat} {line : Text} {lines : List Text} (ordered : first ≤ n)
    (here : lines[n]? = some line) :
    balance ⟨first, n + 1⟩ lines = balance ⟨first, n⟩ lines + braceBalance line := by
  obtain ⟨inside, _⟩ := List.getElem?_eq_some_iff.mp here
  have long : first ≤ (lines.take n).length := by
    rw [List.length_take]
    omega
  simp [balance, covered, List.take_add_one, here, List.drop_append_of_le_length long]

section Cutting

open scoped List

variable {α : Type} {region : Region} {lines : List α}

theorem cutFrom_sublist (ordered : region.start ≤ region.stop) : region.cutFrom lines <+ lines := by
  have later := List.drop_sublist_drop_left lines ordered
  simpa [cutFrom] using (List.Sublist.refl (lines.take region.start)).append later

theorem length_cutFrom (lines : List α) (ordered : region.start ≤ region.stop)
    (inside : region.stop ≤ lines.length) :
    (region.cutFrom lines).length + region.length = lines.length := by
  simp only [cutFrom, length, List.length_append, List.length_take, List.length_drop]
  omega

theorem covered_cutFrom (first : Nat) (inside : region.start ≤ lines.length) :
    covered ⟨first, region.start⟩ (region.cutFrom lines) = covered ⟨first, region.start⟩ lines := by
  have long : (lines.take region.start).length = region.start := by
    rw [List.length_take]
    omega
  simp only [covered, cutFrom]
  rw [List.take_append_of_le_length (Nat.le_of_eq long.symm),
    List.take_of_length_le (Nat.le_of_eq long)]

/-- What is cut out and what stays make up the whole. -/
theorem sum_cutFrom {region : Region} (lines : List Text) (ordered : region.start ≤ region.stop) :
    ((region.cutFrom lines).map braceBalance).sum + region.balance lines =
      (lines.map braceBalance).sum := by
  have before : lines.take region.start ++ region.covered lines = lines.take region.stop := by
    simpa [covered] using covered_append lines (Nat.zero_le _) ordered
  have whole := congrArg (fun ls => (ls.map braceBalance).sum)
    (List.take_append_drop region.stop lines)
  simp only [← before, List.map_append, List.sum_append] at whole
  simp only [cutFrom, balance, List.map_append, List.sum_append]
  omega

end Cutting

variable {opens : Text → Bool} {lines : List Text} {line : Text} {region : Region}
variable {index first start last : Nat} {count : Int}

/-- There is a line of number `n`, and it opens. -/
def OpensAt (opens : Text → Bool) (lines : List Text) (n : Nat) : Prop :=
  ∃ line, lines[n]? = some line ∧ opens line = true

/-- Line number `k` closes what is open since line number `first`. -/
structure ClosesAt (opens : Text → Bool) (lines : List Text) (first k : Nat) : Prop where
  later : first < k
  inside : k < lines.length
  silent : ¬ OpensAt opens lines k
  level : balance ⟨first, k + 1⟩ lines = 0

/-- The first opening line is number `first`; the count since then is first closed on line number
`last`, before which line number `start` is the last to open. -/
structure IsBlock (opens : Text → Bool) (lines : List Text) (first start last : Nat) : Prop where
  begins : IsLeast {n | OpensAt opens lines n} first
  latest : IsGreatest {n | OpensAt opens lines n ∧ n < last} start
  closes : IsLeast {k | ClosesAt opens lines first k} last

theorem opensAt_iff (here : lines[index]? = some line) :
    OpensAt opens lines index ↔ opens line = true := by
  constructor
  · rintro ⟨other, same, opening⟩
    rw [here] at same
    cases same
    exact opening
  · intro opening
    exact ⟨line, here, opening⟩

/-- What the scan carries along when it comes to line number `index`: before the first opening
line nothing, and from there on the last opening line and the count since the first. -/
inductive Scanned (opens : Text → Bool) (lines : List Text) (index : Nat) :
    Option Nat → Int → Prop where
  | outside (silent : ∀ n < index, ¬ OpensAt opens lines n) : Scanned opens lines index none 0
  | inside {first start : Nat} (begins : IsLeast {n | OpensAt opens lines n} first)
      (latest : IsGreatest {n | OpensAt opens lines n ∧ n < index} start)
      (unclosed : ∀ k < index, ¬ ClosesAt opens lines first k) :
      Scanned opens lines index (some start) (balance ⟨first, index⟩ lines)

namespace Scanned

theorem pass (h : Scanned opens lines index none count) (here : lines[index]? = some line)
    (silent : opens line ≠ true) : Scanned opens lines (index + 1) none count := by
  cases h with
  | outside before =>
    refine .outside ?_
    intro n below
    by_cases same : n = index
    · subst same
      exact mt (opensAt_iff here).mp silent
    · exact before n (by omega)

/-- On an opening line the scan never ends, and the start moves there. -/
theorem opening {met : Option Nat} (h : Scanned opens lines index met count)
    (here : lines[index]? = some line) (opening : opens line = true) :
    Scanned opens lines (index + 1) (some index) (count + braceBalance line) := by
  have found : OpensAt opens lines index := (opensAt_iff here).mpr opening
  have latest : IsGreatest {n | OpensAt opens lines n ∧ n < index + 1} index :=
    ⟨⟨found, by omega⟩, fun n member => by have := member.2; omega⟩
  cases h with
  | outside before =>
    have begins : IsLeast {n | OpensAt opens lines n} index := by
      refine ⟨found, ?_⟩
      intro n member
      by_cases below : n < index
      · exact absurd member (before n below)
      · omega
    rw [← balance_self index lines, ← balance_succ (Nat.le_refl index) here]
    refine .inside begins latest ?_
    intro k below closing
    have := closing.later
    omega
  | @inside first start begins _ unclosed =>
    rw [← balance_succ (begins.2 found) here]
    refine .inside begins latest ?_
    intro k below closing
    by_cases same : k = index
    · subst same
      exact closing.silent found
    · exact unclosed k (by omega) closing

/-- On another line the scan ends if the count is back at zero. -/
theorem closing (h : Scanned opens lines index (some start) count)
    (here : lines[index]? = some line) (silent : opens line ≠ true)
    (level : count + braceBalance line = 0) :
    ∃ first, IsBlock opens lines first start index := by
  obtain ⟨inside, _⟩ := List.getElem?_eq_some_iff.mp here
  cases h with
  | @inside first start begins latest unclosed =>
    have behind : first < index := Nat.lt_of_le_of_lt (begins.2 latest.1.1) latest.1.2
    rw [← balance_succ (Nat.le_of_lt behind) here] at level
    have closes : ClosesAt opens lines first index :=
      ⟨behind, inside, mt (opensAt_iff here).mp silent, level⟩
    refine ⟨first, begins, latest, closes, ?_⟩
    intro k member
    by_cases below : k < index
    · exact absurd member (unclosed k below)
    · omega

theorem goOn (h : Scanned opens lines index (some start) count)
    (here : lines[index]? = some line) (silent : opens line ≠ true)
    (uneven : count + braceBalance line ≠ 0) :
    Scanned opens lines (index + 1) (some start) (count + braceBalance line) := by
  cases h with
  | @inside first start begins latest unclosed =>
    have behind : first < index := Nat.lt_of_le_of_lt (begins.2 latest.1.1) latest.1.2
    have quiet : ¬ OpensAt opens lines index := mt (opensAt_iff here).mp silent
    rw [← balance_succ (Nat.le_of_lt behind) here] at uneven ⊢
    refine .inside begins ⟨⟨latest.1.1, by have := latest.1.2; omega⟩, ?_⟩ ?_
    · intro n member
      by_cases same : n = index
      · subst same
        exact absurd member.1 quiet
      · exact latest.2 ⟨member.1, by have := member.2; omega⟩
    · intro k below closing
      by_cases same : k = index
      · subst same
        exact uneven closing.level
      · exact unclosed k (by omega) closing

/-- Behind the last line nothing closes any more. -/
theorem unclosed {met : Option Nat} (h : Scanned opens lines index met count)
    (behind : lines.length ≤ index) (begins : IsLeast {n | OpensAt opens lines n} first) (k : Nat) :
    ¬ ClosesAt opens lines first k := by
  intro closing
  have before := closing.later
  have inside := closing.inside
  cases h with
  | outside silent => exact silent first (by omega) begins.1
  | inside same _ unclosed =>
    rw [begins.unique same] at closing
    exact unclosed k (by omega) closing

end Scanned

def Outcome (opens : Text → Bool) (lines : List Text) : Option Region → Prop
  | some region => ∃ first last, IsBlock opens lines first region.start last ∧
      region.stop = last + 1
  | none => ∀ first k, IsLeast {n | OpensAt opens lines n} first → ¬ ClosesAt opens lines first k

/-- By induction on the lines that are left, with one of the cases above for each line. -/
theorem Scanned.outcome {met : Option Nat} (h : Scanned opens lines index met count) :
    Outcome opens lines (findFrom opens index met count (lines.drop index)) := by
  induction ahead : lines.drop index generalizing index met count with
  | nil =>
    intro first k begins
    exact h.unclosed (List.drop_eq_nil_iff.mp ahead) begins k
  | cons line rest ih =>
    have here : lines[index]? = some line := by
      rw [← List.head?_drop, ahead, List.head?_cons]
    have behind : lines.drop (index + 1) = rest := by
      rw [← List.tail_drop, ahead, List.tail_cons]
    by_cases opening : opens line = true
    · have next := ih (h.opening here opening) behind
      simpa [findFrom, opening] using next
    · cases met with
      | none => simpa [findFrom, opening] using ih (h.pass here opening) behind
      | some start =>
        have before : start ≠ index := by
          cases h with
          | inside _ latest _ => exact Nat.ne_of_lt latest.1.2
        by_cases level : count + braceBalance line = 0
        · obtain ⟨first, block⟩ := h.closing here opening level
          have ends : findFrom opens index (some start) count (line :: rest) =
              some ⟨start, index + 1⟩ := by
            simp [findFrom, opening, level, before]
          rw [ends]
          exact ⟨first, index, block, rfl⟩
        · have next := ih (h.goOn here opening level) behind
          simpa [findFrom, opening, level] using next

/-- The invariant of the scan, read at the end of the lines. -/
theorem find?_outcome (opens : Text → Bool) (lines : List Text) :
    Outcome opens lines (find? opens lines) := by
  have start : Scanned opens lines 0 none 0 := .outside (by omega)
  exact start.outcome

/-- The first opening line is the least one, and so is the line that closes: one region is left. -/
theorem IsBlock.unique {first' start' last' : Nat} (h : IsBlock opens lines first start last)
    (g : IsBlock opens lines first' start' last') : start = start' ∧ last = last' := by
  have closes := h.closes
  rw [h.begins.unique g.begins] at closes
  have same : last = last' := closes.unique g.closes
  subst same
  exact ⟨h.latest.unique g.latest, rfl⟩

/-- The scan gives the region of the block, if there is one. -/
theorem find?_eq_some_iff : find? opens lines = some region ↔
    ∃ first last, IsBlock opens lines first region.start last ∧ region.stop = last + 1 := by
  have outcome := find?_outcome opens lines
  constructor
  · intro found
    rw [found] at outcome
    exact outcome
  · rintro ⟨first, last, block, stop⟩
    cases found : find? opens lines with
    | none =>
      rw [found] at outcome
      exact absurd block.closes.1 (outcome first last block.begins)
    | some other =>
      rw [found] at outcome
      obtain ⟨first', last', block', stop'⟩ := outcome
      obtain ⟨start, rfl⟩ := block.unique block'
      have ends : region.stop = other.stop := stop.trans stop'.symm
      cases region
      cases other
      cases start
      cases ends
      rfl

theorem find?_bounds (h : find? opens lines = some region) :
    region.start + 2 ≤ region.stop ∧ region.stop ≤ lines.length := by
  obtain ⟨first, last, block, stop⟩ := find?_eq_some_iff.mp h
  have before := block.latest.1.2
  have inside := block.closes.1.inside
  omega

def shift (n : Nat) (region : Region) : Region :=
  ⟨region.start + n, region.stop + n⟩

/-- The numbers of the lines have no part in the scan but to be reported. -/
theorem findFrom_shift (n index : Nat) (met : Option Nat) (count : Int) (lines : List Text) :
    findFrom opens (index + n) (met.map (· + n)) count lines =
      (findFrom opens index met count lines).map (shift n) := by
  induction lines generalizing index met count with
  | nil => rfl
  | cons line rest ih =>
    have met_here : (if opens line then some (index + n) else met.map (· + n)) =
        (if opens line then some index else met).map (· + n) := by
      split <;> rfl
    rw [findFrom, findFrom, met_here, Nat.add_right_comm]
    cases (if opens line then some index else met) with
    | none => exact ih (index + 1) none count
    | some start =>
      have same : start + n = index + n ↔ start = index := by omega
      by_cases ends : count + braceBalance line = 0 ∧ start ≠ index
      · simp [ends, shift, Nat.add_right_comm]
      · simp only [Option.map_some, ne_eq, same, if_neg ends]
        exact ih (index + 1) (some start) (count + braceBalance line)

/-- Lines before the first opening line only move the region. -/
theorem find?_append {before : List Text} (silent : ∀ line ∈ before, opens line = false)
    (lines : List Text) :
    find? opens (before ++ lines) = (find? opens lines).map (shift before.length) := by
  have passed : ∀ index, findFrom opens index none 0 (before ++ lines) =
      findFrom opens (index + before.length) none 0 lines := by
    induction before with
    | nil => intro index; rfl
    | cons line before ih =>
      intro index
      obtain ⟨here, others⟩ := List.forall_mem_cons.mp silent
      have later := ih others (index + 1)
      simpa [findFrom, here, Nat.add_comm, Nat.add_left_comm] using later
  rw [find?, passed 0]
  exact findFrom_shift before.length 0 none 0 lines

/-- The scan ends with the last line of the region, whatever comes behind it. -/
theorem findFrom_stops {met : Option Nat}
    (h : findFrom opens index met count lines = some region) :
    ∃ read rest, lines = read ++ rest ∧ region.stop = index + read.length ∧
      ∀ after, findFrom opens index met count (read ++ after) = some region := by
  induction lines generalizing index met count with
  | nil => cases h
  | cons line rest ih =>
    rw [findFrom] at h
    cases here : (if opens line then some index else met) with
    | none =>
      rw [here] at h
      obtain ⟨read, rest, rfl, stop, reads⟩ := ih h
      refine ⟨line :: read, rest, rfl, by rw [List.length_cons]; omega, ?_⟩
      intro after
      rw [List.cons_append, findFrom, here]
      exact reads after
    | some start =>
      rw [here] at h
      by_cases ends : count + braceBalance line = 0 ∧ start ≠ index
      · simp only [if_pos ends] at h
        refine ⟨[line], rest, rfl, by cases h; rfl, ?_⟩
        intro after
        rw [List.cons_append, findFrom, here]
        simpa only [if_pos ends] using h
      · simp only [if_neg ends] at h
        obtain ⟨read, rest, rfl, stop, reads⟩ := ih h
        refine ⟨line :: read, rest, rfl, by rw [List.length_cons]; omega, ?_⟩
        intro after
        rw [List.cons_append, findFrom, here]
        simpa only [if_neg ends] using reads after

/-- The scan has ended before it comes to later lines. -/
theorem find?_take_append (h : find? opens lines = some region) (after : List Text) :
    find? opens (lines.take region.stop ++ after) = some region := by
  obtain ⟨read, rest, rfl, stop, reads⟩ := findFrom_stops h
  have length : region.stop = read.length := by omega
  rw [length, List.take_left]
  exact reads after

/-- A region that is found lies among the lines, and of its lines the first alone opens. -/
structure Fits (opens : Text → Bool) (lines : List Text) (region : Region) : Prop where
  several : region.start + 2 ≤ region.stop
  inside : region.stop ≤ lines.length
  opensFirst : ∀ n, region.start ≤ n → n < region.stop → (OpensAt opens lines n ↔ n = region.start)
  cuts : region.cutFrom? lines = some (region.cutFrom lines)
  /-- The lines behind the region do not matter. -/
  stops : ∀ after, find? opens (lines.take region.stop ++ after) = some region

theorem fits_of_find? (h : find? opens lines = some region) : Fits opens lines region := by
  obtain ⟨several, inside⟩ := find?_bounds h
  obtain ⟨first, last, block, stop⟩ := find?_eq_some_iff.mp h
  refine ⟨several, inside, ?_, if_pos ⟨by omega, inside⟩, find?_take_append h⟩
  intro n from_start below
  constructor
  · intro opening
    by_cases closing : n = last
    · subst closing
      exact absurd opening block.closes.1.silent
    · have latest := block.latest.2 ⟨opening, by omega⟩
      omega
  · rintro rfl
    exact block.latest.1.1

/-- The scan finds the region that ends with the first closing line and begins with the last
opening line before it, and it finds none if no line closes. Silent lines in front move the
region and do nothing else. -/
theorem find?_exact (opens : Text → Bool) (lines : List Text) :
    (∀ first k, IsLeast {n | OpensAt opens lines n} first → ClosesAt opens lines first k →
      ∃ start last, IsLeast {k | ClosesAt opens lines first k} last ∧
        IsGreatest {n | OpensAt opens lines n ∧ n < last} start ∧
        find? opens lines = some ⟨start, last + 1⟩) ∧
    ((∀ first k, IsLeast {n | OpensAt opens lines n} first → ¬ ClosesAt opens lines first k) →
      find? opens lines = none) ∧
    (∀ region, find? opens lines = some region → Fits opens lines region) ∧
    ∀ before, (∀ line ∈ before, opens line = false) →
      find? opens (before ++ lines) = (find? opens lines).map (shift before.length) := by
  have outcome := find?_outcome opens lines
  refine ⟨?_, ?_, fun region found => fits_of_find? found, fun before silent =>
    find?_append silent lines⟩
  · intro first k begins closing
    cases found : find? opens lines with
    | none =>
      rw [found] at outcome
      exact absurd closing (outcome first k begins)
    | some region =>
      rw [found] at outcome
      obtain ⟨first', last, block, stop⟩ := outcome
      rw [block.begins.unique begins] at block
      refine ⟨region.start, last, block.closes, block.latest, ?_⟩
      rw [← stop]
  · intro unclosed
    cases found : find? opens lines with
    | none => rfl
    | some region =>
      rw [found] at outcome
      obtain ⟨first, last, block, _⟩ := outcome
      exact absurd block.closes.1 (unclosed first last block.begins)

/-- On an opening line the count may be zero without an end, and the region begins with the last of
the opening lines. -/
example : find? (·.head? = some 'o') ["o\x7d".toList, "o\x7b".toList, "x".toList] =
    some ⟨1, 3⟩ := by decide

end ProtoPrep.Region
