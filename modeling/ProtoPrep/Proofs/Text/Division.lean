import ProtoPrep.Proofs.Text.Literal

/-!
# The parts between occurrences

A given text divides another one at its leftmost occurrences: behind each part it stands for
the first time, and in the last part not at all. There is one such division. Replacing the
given text keeps the parts and joins them by what is inserted, so the number of replacements
and the text come from the same division.
-/

namespace ProtoPrep.Text

open scoped List

/-- The parts of a text between the leftmost occurrences of `lead`. -/
inductive Parts (lead : Text) : List Text → Text → Prop
  | last {part : Text} (absent : ¬ lead <:+: part) : Parts lead [part] part
  | cons {part rest : Text} {parts : List Text}
      (first : ∀ u v, part ++ lead ++ rest = u ++ lead ++ v → part.length ≤ u.length)
      (later : Parts lead parts rest) : Parts lead (part :: parts) (part ++ lead ++ rest)

variable {lead new t : Text} {parts others : List Text}

theorem Parts.exists_cons (h : Parts lead parts t) : ∃ part rest, parts = part :: rest := by
  cases h with
  | last _ => exact ⟨_, _, rfl⟩
  | cons _ _ => exact ⟨_, _, rfl⟩

/-- The parts with occurrences between them are the text. -/
theorem Parts.intercalate_eq (h : Parts lead parts t) : lead.intercalate parts = t := by
  induction h with
  | last _ => exact List.intercalate_singleton
  | cons _ later ih =>
    obtain ⟨next, others, rfl⟩ := later.exists_cons
    rw [List.intercalate_cons_cons, ih]

/-- A text has one division only: of two first parts none is longer than the other. -/
theorem Parts.unique (h : Parts lead parts t) (g : Parts lead others t) : parts = others := by
  induction h generalizing others with
  | last absent =>
    cases g with
    | last _ => rfl
    | @cons part rest _ _ _ => exact absurd ⟨part, rest, rfl⟩ absent
  | @cons part rest parts first later ih =>
    generalize whole : part ++ lead ++ rest = s at g
    cases g with
    | last absent => exact absurd ⟨part, rest, whole⟩ absent
    | @cons part' rest' parts' first' later' =>
      have shorter : part.length ≤ part'.length := first part' rest' whole
      have longer : part'.length ≤ part.length := first' part rest whole.symm
      rw [List.append_assoc, List.append_assoc] at whole
      obtain ⟨rfl, behind⟩ := List.append_inj whole (Nat.le_antisymm shorter longer)
      obtain rfl := List.append_cancel_left behind
      rw [ih later']

/-- A character at which the given text does not begin goes to the first part. -/
theorem Parts.grow {c : Char} {part : Text} (h : Parts lead (part :: parts) t)
    (absent : ¬ lead <+: c :: t) : Parts lead ((c :: part) :: parts) (c :: t) := by
  cases h with
  | last missing =>
    refine .last ?_
    rw [List.infix_cons_iff, not_or]
    exact ⟨absent, missing⟩
  | cons first later =>
    refine .cons ?_ later
    intro u v whole
    cases u with
    | nil => exact absurd ⟨v, whole.symm⟩ absent
    | cons d u => exact Nat.succ_le_succ (first u v (List.cons.inj whole).2)

/-- A replacement joins the parts by what it inserts, and counts the places between them. -/
theorem exists_parts_replace (nonempty : lead ≠ []) (new t : Text) :
    ∃ parts, Parts lead parts t ∧ (replace lead new t).text = new.intercalate parts ∧
      (replace lead new t).count + 1 = parts.length := by
  induction t using replace_induction nonempty with
  | nil =>
    have absent : ¬ lead <:+: [] := mt List.infix_nil.mp nonempty
    rw [replace_nil nonempty]
    exact ⟨[[]], .last absent, List.intercalate_singleton.symm, rfl⟩
  | found r ih =>
    obtain ⟨parts, division, joined, counted⟩ := ih
    obtain ⟨next, others, rfl⟩ := division.exists_cons
    rw [replace_append nonempty]
    refine ⟨[] :: next :: others, .cons (fun _ _ _ => Nat.zero_le _) division, ?_, ?_⟩
    · rw [joined, List.intercalate_cons_cons, List.nil_append]
    · exact congrArg Nat.succ counted
  | other c r absent ih =>
    obtain ⟨parts, division, joined, counted⟩ := ih
    obtain ⟨part, others, rfl⟩ := division.exists_cons
    rw [replace_cons nonempty absent]
    refine ⟨(c :: part) :: others, division.grow absent, ?_, counted⟩
    rw [joined]
    cases others with
    | nil => rw [List.intercalate_singleton, List.intercalate_singleton]
    | cons next others =>
      rw [List.intercalate_cons_cons, List.intercalate_cons_cons, List.cons_append,
        List.cons_append]

end ProtoPrep.Text
