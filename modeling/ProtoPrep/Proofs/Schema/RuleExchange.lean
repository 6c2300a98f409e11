import ProtoPrep.Proofs.Schema.Rule
import ProtoPrep.Proofs.Text.Exchange

/-!
# Exchanging rules

Two rules commute on a text if both orders give the same text and each of them counts as
if it alone were applied. Rules that commute on every text they can be given may be
applied in any order. Two lists of rules of which none touches the work of the other list
may be exchanged as a whole, and a text that no rule touches stays where it stands.
-/

namespace ProtoPrep.Rule

open scoped List

/-- Both orders give the same text, and each rule counts as if it alone were applied. -/
structure Commute (first second : Rule) (t : Text) : Prop where
  text : (second.apply (first.apply t).text).text = (first.apply (second.apply t).text).text
  count : (second.apply (first.apply t).text).count = (second.apply t).count
  count' : (first.apply (second.apply t).text).count = (first.apply t).count

/-- Two rules that look for given texts and do not touch each other's work. -/
def Independent (first second : Rule) : Prop :=
  ∃ a b, first.matcher = .literal a ∧ second.matcher = .literal b ∧
    Text.Independent a first.replacement b second.replacement

variable {first second rule : Rule} {rules others : List Rule} {t : Text}

/-- For rules that look for given texts it is enough that the replacements can be exchanged. -/
theorem commute_of_exchangeable {a b : Text} (found : first.matcher = .literal a)
    (found' : second.matcher = .literal b)
    (h : Text.Exchangeable a first.replacement b second.replacement t) :
    Commute first second t := by
  obtain ⟨texts, counts, counts'⟩ := h.replace_comm
  simp only [← apply_literal found, ← apply_literal found'] at texts counts counts'
  exact ⟨texts, counts, counts'⟩

theorem Independent.symm (h : Independent first second) : Independent second first := by
  obtain ⟨a, b, found, found', independent⟩ := h
  exact ⟨b, a, found', found, independent.symm⟩

theorem Independent.commute (h : Independent first second) (t : Text) :
    Commute first second t := by
  obtain ⟨a, b, found, found', independent⟩ := h
  exact commute_of_exchangeable found found' (independent.exchangeable t)

/-- Rules and the text that is left to them, such that the rules may be applied in any order:
whichever rule comes first, the next one could as well. -/
structure AnyOrder (ready : List Rule → Text → Prop) : Prop where
  perm : ∀ {rules others t}, rules.Perm others → ready rules t → ready others t
  step : ∀ {rule rules t}, ready (rule :: rules) t → ready rules (rule.apply t).text
  commute : ∀ {first second rules t}, ready (first :: second :: rules) t → Commute first second t

/-- By induction on the permutation, of which the swap of two rules is the one step that needs an
argument. -/
theorem AnyOrder.applyInOrder_perm {ready : List Rule → Text → Prop} (h : AnyOrder ready)
    (same : rules.Perm others) (start : ready rules t) :
    (applyInOrder rules t).text = (applyInOrder others t).text ∧
      (applyInOrder rules t).total = (applyInOrder others t).total := by
  induction same generalizing t with
  | nil => exact ⟨rfl, rfl⟩
  | cons rule _ ih =>
    obtain ⟨texts, totals⟩ := ih (h.step start)
    rw [text_cons, text_cons, total_cons, total_cons, totals]
    exact ⟨texts, rfl⟩
  | swap first second rules =>
    have here := h.commute start
    simp only [text_cons, total_cons, here.text, here.count, here.count', true_and]
    omega
  | trans perm _ ih ih' =>
    obtain ⟨texts, totals⟩ := ih start
    obtain ⟨texts', totals'⟩ := ih' (h.perm perm start)
    exact ⟨texts.trans texts', totals.trans totals'⟩

theorem anyOrder_independent : AnyOrder fun rules _ => rules.Pairwise Independent where
  perm same independent := same.pairwise independent fun h => h.symm
  step independent := independent.of_cons
  commute independent := ((List.pairwise_cons.mp independent).1 _ List.mem_cons_self).commute _

theorem applyInOrder_perm (same : rules.Perm others) (independent : rules.Pairwise Independent)
    (t : Text) :
    (applyInOrder rules t).text = (applyInOrder others t).text ∧
      (applyInOrder rules t).total = (applyInOrder others t).total :=
  anyOrder_independent.applyInOrder_perm same independent

/-- A rule that commutes with each rule of a list goes past the whole list. -/
theorem apply_comm_applyInOrder (apart : ∀ other ∈ others, Independent rule other) (t : Text) :
    (applyInOrder others (rule.apply t).text).text =
        (rule.apply (applyInOrder others t).text).text ∧
      (applyInOrder others (rule.apply t).text).total = (applyInOrder others t).total := by
  induction others generalizing t with
  | nil => exact ⟨rfl, rfl⟩
  | cons other others ih =>
    obtain ⟨here, later⟩ := List.forall_mem_cons.mp apart
    have swapped := here.commute t
    obtain ⟨texts, totals⟩ := ih later (other.apply t).text
    simp only [text_cons, total_cons, swapped.text, swapped.count, texts, totals, true_and]

/-- Lists of rules that do not touch each other's work may be exchanged, and the second one counts
as if it alone were applied. -/
theorem applyInOrder_comm (apart : ∀ rule ∈ rules, ∀ other ∈ others, Independent rule other)
    (t : Text) :
    (applyInOrder others (applyInOrder rules t).text).text =
        (applyInOrder rules (applyInOrder others t).text).text ∧
      (applyInOrder others (applyInOrder rules t).text).total = (applyInOrder others t).total := by
  induction rules generalizing t with
  | nil => exact ⟨rfl, rfl⟩
  | cons rule rules ih =>
    obtain ⟨here, later⟩ := List.forall_mem_cons.mp apart
    obtain ⟨texts, totals⟩ := ih later (rule.apply t).text
    obtain ⟨texts', totals'⟩ := apply_comm_applyInOrder here t
    rw [text_cons, text_cons, texts, totals, texts', totals']
    exact ⟨rfl, rfl⟩

/-- A text in which nothing begins that the rules look for stays at the beginning. -/
theorem applyInOrder_append_of_unbegun {kept : Text}
    (outside : ∀ rule ∈ rules, ∃ lead, rule.matcher = .literal lead ∧ lead ≠ [] ∧
      Text.Unbegun lead kept) (t : Text) :
    (applyInOrder rules (kept ++ t)).text = kept ++ (applyInOrder rules t).text ∧
      (applyInOrder rules (kept ++ t)).total = (applyInOrder rules t).total := by
  induction rules generalizing t with
  | nil => exact ⟨rfl, rfl⟩
  | cons rule rules ih =>
    obtain ⟨⟨lead, found, nonempty, unbegun⟩, later⟩ := List.forall_mem_cons.mp outside
    have here := Text.replace_append_of_unbegun nonempty unbegun rule.replacement t
    simp only [← apply_literal found] at here
    obtain ⟨texts, totals⟩ := ih later (rule.apply t).text
    rw [text_cons, text_cons, total_cons, total_cons, here, texts, totals]
    exact ⟨rfl, rfl⟩

/-- A text that stands clear of all that the rules look for stays where it stands, and both sides
of it are worked on by themselves. -/
theorem applyInOrder_around {kept : Text}
    (clear : ∀ rule ∈ rules, ∃ lead, rule.matcher = .literal lead ∧ lead ≠ [] ∧
      Text.Clear lead kept) (before behind : Text) :
    (applyInOrder rules (before ++ (kept ++ behind))).text =
        (applyInOrder rules before).text ++ (kept ++ (applyInOrder rules behind).text) ∧
      (applyInOrder rules (before ++ (kept ++ behind))).total =
        (applyInOrder rules before).total + (applyInOrder rules behind).total := by
  induction rules generalizing before behind with
  | nil => exact ⟨rfl, rfl⟩
  | cons rule rules ih =>
    obtain ⟨⟨lead, found, nonempty, apart⟩, later⟩ := List.forall_mem_cons.mp clear
    have here := Text.replace_around_of_clear nonempty apart rule.replacement before behind
    simp only [← apply_literal found] at here
    obtain ⟨texts, totals⟩ := ih later (rule.apply before).text (rule.apply behind).text
    simp only [text_cons, total_cons, here, texts, totals, true_and]
    omega

end ProtoPrep.Rule
