import ProtoPrep.Proofs.Text.Insertion

/-!
# Quotations behind a keyword

A keyword and a text in double quotes, such as a directive that includes a file. Two of
them with different texts never overlap: the quotes of one would have to be the quotes of
the other. The one exception is a closing quote that is the opening quote of the next;
then the first text ends as the keyword does.
-/

namespace ProtoPrep.Text

open scoped List

/-- What stands on both sides of the first occurrence of a character. -/
theorem append_cons_inj {c : Char} {s s' t t' : Text} (free : c ∉ s) (free' : c ∉ s') :
    s ++ c :: t = s' ++ c :: t' ↔ s = s' ∧ t = t' := by
  constructor
  · intro whole
    rcases List.append_eq_append_iff.mp whole with ⟨a, rfl, rest⟩ | ⟨a, rfl, rest⟩
    · rcases List.cons_eq_append_iff.mp rest with ⟨rfl, same⟩ | ⟨a, rfl, _⟩
      · exact ⟨(List.append_nil s).symm, (List.cons.inj same).2.symm⟩
      · exact absurd (by simp) free'
    · rcases List.cons_eq_append_iff.mp rest with ⟨rfl, same⟩ | ⟨a, rfl, _⟩
      · exact ⟨List.append_nil s', (List.cons.inj same).2⟩
      · exact absurd (by simp) free
  · rintro ⟨rfl, rfl⟩
    rfl

def quotation (keyword t : Text) : Text :=
  keyword ++ '"' :: (t ++ ['"'])

variable {keyword p q u v w : Text}

theorem quotation_eq (keyword p : Text) : quotation keyword p = (keyword ++ '"' :: p) ++ ['"'] := by
  simp [quotation]

theorem getLast?_quotation (keyword p : Text) : (quotation keyword p).getLast? = some '"' := by
  rw [quotation_eq, List.getLast?_concat]

section Unquoted

variable (bare : '"' ∉ keyword) (unquoted : '"' ∉ p) (unquoted' : '"' ∉ q)

include bare unquoted in
theorem count_quotation : (quotation keyword p).count '"' = 2 := by
  simp [quotation, List.count_eq_zero.mpr bare, List.count_eq_zero.mpr unquoted]

include bare unquoted unquoted' in
/-- The quotes of one quotation that stands in another are the quotes of the other. -/
theorem eq_of_quotation_inside (h : quotation keyword q <:+: quotation keyword p) : q = p := by
  obtain ⟨before, behind, whole⟩ := h
  have quotes := congrArg (List.count '"') whole
  rw [List.count_append, List.count_append, count_quotation bare unquoted,
    count_quotation bare unquoted'] at quotes
  have free : '"' ∉ before := List.count_eq_zero.mp (by omega)
  have opening : (before ++ keyword) ++ '"' :: (q ++ '"' :: behind) =
      keyword ++ '"' :: (p ++ '"' :: []) := by
    simpa [quotation] using whole
  have lead : '"' ∉ before ++ keyword := by
    rw [List.mem_append, not_or]
    exact ⟨free, bare⟩
  have closing := ((append_cons_inj lead bare).mp opening).2
  exact ((append_cons_inj unquoted' unquoted).mp closing).1

include bare unquoted unquoted' in
/-- An overlap that ended in the second quote of the quotation behind would make the two paths
agree, and one that ended in its first quote would make the path end like the keyword. -/
theorem quotation_ahead {c : Char} (last : keyword.getLast? = some c) (closed : p.getLast? ≠ some c)
    (differ : p ≠ q) (ends : quotation keyword p = u ++ v) (begins : quotation keyword q = v ++ w) :
    v = [] := by
  by_contra solid
  have quote : v.getLast? = some '"' := by
    rw [← getLast?_quotation keyword p, ends, List.getLast?_append_of_ne_nil u solid]
  obtain ⟨front, rfl⟩ := List.getLast?_eq_some_iff.mp quote
  by_cases quoted : '"' ∈ front
  · have nothing : w = [] := by
      by_contra further
      have behind := getLast?_quotation keyword q
      rw [begins, List.getLast?_append_of_ne_nil _ further] at behind
      have quotes := congrArg (List.count '"') begins
      rw [count_quotation bare unquoted', List.count_append, List.count_append] at quotes
      have first := List.count_pos_iff.mpr quoted
      have second : List.count '"' ['"'] = 1 := List.count_singleton_self
      have third := List.count_pos_iff.mpr (List.mem_of_getLast? behind)
      omega
    rw [nothing, List.append_nil] at begins
    rw [← begins] at ends
    have inside : quotation keyword q <:+: quotation keyword p := ⟨u, [], by simp [ends]⟩
    exact differ (eq_of_quotation_inside bare unquoted unquoted' inside).symm
  · have opening : keyword ++ '"' :: (q ++ ['"']) = front ++ '"' :: w := by
      simpa [quotation] using begins
    obtain ⟨rfl, _⟩ := (append_cons_inj bare quoted).mp opening
    rw [quotation_eq, ← List.append_assoc] at ends
    have lasts := congrArg List.getLast? (List.append_cancel_right ends)
    have member : c ∈ keyword := List.mem_of_getLast? last
    rw [List.getLast?_append_of_ne_nil u (List.ne_nil_of_mem member), last,
      List.getLast?_append_of_ne_nil keyword (List.cons_ne_nil _ p), List.getLast?_cons] at lasts
    have same : p.getLast?.getD '"' = c := Option.some.inj lasts
    cases found : p.getLast? with
    | none =>
      rw [found, Option.getD_none] at same
      exact bare (same ▸ member)
    | some d =>
      rw [found, Option.getD_some] at same
      exact closed (found.trans (congrArg some same))

include bare unquoted unquoted' in
/-- Quotations of different texts do not overlap. -/
theorem clear_quotation {c : Char} (last : keyword.getLast? = some c) (closed : p.getLast? ≠ some c)
    (closed' : q.getLast? ≠ some c) (differ : p ≠ q) :
    Clear (quotation keyword p) (quotation keyword q) where
  ahead ends begins := quotation_ahead bare unquoted unquoted' last closed differ ends begins
  behind ends begins := quotation_ahead bare unquoted' unquoted last closed' differ.symm ends begins
  not_inside inside := differ (eq_of_quotation_inside bare unquoted' unquoted inside)
  not_around around := differ (eq_of_quotation_inside bare unquoted unquoted' around).symm

end Unquoted

end ProtoPrep.Text
