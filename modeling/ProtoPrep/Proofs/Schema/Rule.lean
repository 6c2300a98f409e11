import ProtoPrep.Proofs.Schema.ImportStatement
import ProtoPrep.Proofs.Text.Completion
import ProtoPrep.Proofs.Text.Division
import ProtoPrep.Proofs.Text.LineByLine
import ProtoPrep.Schema.Rule

/-!
# What the rules do to a text

What each rule of a list does to every text, the list does as a whole: this is said
once for keeping a text, for leaving a subsequence, for losing a fixed number of
characters with each replacement, for working line by line, and for leaving none of
what it looks for.
-/

namespace ProtoPrep.Rule

open scoped List

variable {rule : Rule} {rules : List Rule} {t : Text}

theorem apply_literal {lead : Text} (literal : rule.matcher = .literal lead) (t : Text) :
    rule.apply t = Text.replace lead rule.replacement t := by
  rw [apply, literal]

/-- A rule that looks for a given text replaces its leftmost occurrences and counts them: the parts
between them are settled by the text, and they are joined by the replacement as it stands. The
empty text stands before every character and at the end. -/
theorem apply_literal_exact (name : String) (lead new t : Text) :
    let edit := apply ⟨name, .literal lead, new⟩ t
    (lead ≠ [] →
      (∃ parts, Text.Parts lead parts t ∧ lead.intercalate parts = t ∧
        edit.text = new.intercalate parts ∧ edit.count + 1 = parts.length ∧
        ∀ others, Text.Parts lead others t → others = parts) ∧
      (edit.count = 0 ↔ ¬ lead <:+: t) ∧ (edit.count = 0 → edit.text = t)) ∧
    (lead = [] → edit = ⟨t.flatMap (fun c => new ++ [c]) ++ new, t.length + 1⟩) := by
  intro edit
  constructor
  · intro nonempty
    obtain ⟨parts, division, joined, counted⟩ := Text.exists_parts_replace nonempty new t
    have single : ∀ others, Text.Parts lead others t → others = parts :=
      fun _ other => other.unique division
    refine ⟨⟨parts, division, division.intercalate_eq, joined, counted, single⟩, ?_, ?_⟩
    · exact Text.count_replace_eq_zero_iff nonempty new t
    · exact Text.text_replace_of_count_eq_zero
  · rintro rfl
    exact Text.replace_empty new t

/-- Two pairs of five characters are replaced, and none that stands across them. -/
theorem apply_literal_exact_of_overlap :
    let edit := apply ⟨"pair", .literal "aa".toList, "$1aa".toList⟩ "aaaaab".toList
    "aa".toList ≠ [] ∧ edit = ⟨"$1aa$1aaab".toList, 2⟩ ∧
      ∃ parts, Text.Parts "aa".toList parts "aaaaab".toList ∧
        "aa".toList.intercalate parts = "aaaaab".toList ∧
        edit.text = "$1aa".toList.intercalate parts ∧ edit.count + 1 = parts.length ∧
        ∀ others, Text.Parts "aa".toList others "aaaaab".toList → others = parts := by
  intro edit
  have nonempty : "aa".toList ≠ [] := by decide
  have general := apply_literal_exact "pair" "aa".toList "$1aa".toList "aaaaab".toList
  exact ⟨nonempty, by decide +kernel, (general.1 nonempty).1⟩

theorem text_apply_of_count_eq_zero (unmatched : (rule.apply t).count = 0) :
    (rule.apply t).text = t := by
  rw [apply] at unmatched ⊢
  split at unmatched
  · exact Text.text_replace_of_count_eq_zero unmatched
  · exact Pattern.text_replace_of_count_eq_zero unmatched

theorem total_cons (rule : Rule) (rules : List Rule) (t : Text) :
    (applyInOrder (rule :: rules) t).total =
      (rule.apply t).count + (applyInOrder rules (rule.apply t).text).total := rfl

theorem text_cons (rule : Rule) (rules : List Rule) (t : Text) :
    (applyInOrder (rule :: rules) t).text = (applyInOrder rules (rule.apply t).text).text := rfl

/-- The rules replace nothing exactly if none of them finds anything in the text they are given. -/
theorem total_eq_zero_iff :
    (applyInOrder rules t).total = 0 ↔ ∀ rule ∈ rules, (rule.apply t).count = 0 := by
  induction rules generalizing t with
  | nil => simp [applyInOrder, Pass.total]
  | cons rule rules ih =>
    rw [total_cons, Nat.add_eq_zero_iff, ih, List.forall_mem_cons]
    refine and_congr_right fun unmatched => ?_
    rw [text_apply_of_count_eq_zero unmatched]

theorem text_of_total_eq_zero (unmatched : (applyInOrder rules t).total = 0) :
    (applyInOrder rules t).text = t := by
  induction rules generalizing t with
  | nil => rfl
  | cons rule rules ih =>
    rw [total_cons, Nat.add_eq_zero_iff] at unmatched
    rw [text_cons, ih unmatched.2, text_apply_of_count_eq_zero unmatched.1]

theorem applyInOrder_sublist (shorter : ∀ rule ∈ rules, ∀ s, (rule.apply s).text <+ s) (t : Text) :
    (applyInOrder rules t).text <+ t := by
  induction rules generalizing t with
  | nil => exact List.Sublist.refl t
  | cons rule rules ih =>
    obtain ⟨here, later⟩ := List.forall_mem_cons.mp shorter
    exact (ih later _).trans (here t)

/-- Each replacement of any of the rules loses as many characters of the kind. -/
theorem countP_applyInOrder {q : Char → Bool} {k : Nat}
    (loses : ∀ rule ∈ rules, ∀ s,
      (rule.apply s).text.countP q + (rule.apply s).count * k = s.countP q) (t : Text) :
    (applyInOrder rules t).text.countP q + (applyInOrder rules t).total * k = t.countP q := by
  induction rules generalizing t with
  | nil => simp [applyInOrder, Pass.total]
  | cons rule rules ih =>
    obtain ⟨here, later⟩ := List.forall_mem_cons.mp loses
    have first := here t
    have others := ih later (rule.apply t).text
    rw [text_cons, total_cons, Nat.add_mul]
    omega

def edit (rules : List Rule) (t : Text) : Edit :=
  ⟨(applyInOrder rules t).text, (applyInOrder rules t).total⟩

theorem lineByLine_apply_iff {lead : Text} (literal : rule.matcher = .literal lead) :
    LineByLine rule.apply ↔ '\n' ∉ lead := by
  rw [funext (apply_literal literal)]
  exact lineByLine_replace_iff lead rule.replacement

theorem lineByLine_edit (each : ∀ rule ∈ rules, LineByLine rule.apply) :
    LineByLine (edit rules) := by
  induction rules with
  | nil => exact LineByLine.unchanged
  | cons rule rules ih =>
    obtain ⟨here, later⟩ := List.forall_mem_cons.mp each
    exact here.followedBy (ih later)

/-- A text that stands clear of all replacements is gone after it was replaced, and does not come
up where it was not. -/
theorem not_infix_applyInOrder {lead : Text} (nonempty : lead ≠ [])
    (literal : ∀ rule ∈ rules, ∃ other, rule.matcher = .literal other ∧ other ≠ [] ∧
      Text.Clear lead rule.replacement)
    (replaced : (∃ rule ∈ rules, rule.matcher = .literal lead) ∨ ¬ lead <:+: t) :
    ¬ lead <:+: (applyInOrder rules t).text := by
  induction rules generalizing t with
  | nil =>
    rcases replaced with ⟨_, member, _⟩ | absent
    · cases member
    · exact absent
  | cons rule rules ih =>
    obtain ⟨⟨other, found, solid, clear⟩, others⟩ := List.forall_mem_cons.mp literal
    refine ih others ?_
    rw [apply_literal found]
    by_cases same : other = lead
    · subst same
      exact Or.inr (Text.not_infix_replace solid clear t)
    rcases replaced with ⟨later, member, looks⟩ | absent
    · rcases List.mem_cons.mp member with rfl | member
      · exact absurd (Matcher.literal.inj (found.symm.trans looks)) same
      · exact Or.inl ⟨later, member, looks⟩
    · exact Or.inr (mt (Text.infix_of_infix_replace solid clear) absent)

/-- The imports of well-known files stand on one line, and their definitions hold no quotes. -/
theorem inlineImports_literal : ∀ rule ∈ inlineImports, ∃ lead,
    rule.matcher = .literal lead ∧ lead ≠ [] ∧ '\n' ∉ lead ∧
      lead.count '"' = rule.replacement.count '"' + 2 := by
  simp only [inlineImports, List.forall_mem_cons]
  refine ⟨⟨_, rfl, ?_, ?_, ?_⟩, ⟨_, rfl, ?_, ?_, ?_⟩, by simp⟩ <;> decide +kernel

/-- Every replacement takes the two quotes of a path, and no definition holds one. -/
theorem count_quote_inlineImports (t : Text) :
    (applyInOrder inlineImports t).text.count '"' + (applyInOrder inlineImports t).total * 2 =
      t.count '"' := by
  refine countP_applyInOrder (fun rule member s => ?_) t
  obtain ⟨lead, literal, nonempty, _, loses⟩ := inlineImports_literal rule member
  rw [apply_literal literal]
  exact Text.countP_replace nonempty loses

theorem lineByLine_inlineImports : LineByLine (edit inlineImports) := by
  refine lineByLine_edit fun rule member => ?_
  obtain ⟨lead, literal, _, unbroken, _⟩ := inlineImports_literal rule member
  exact (lineByLine_apply_iff literal).mpr unbroken

theorem total_inlineImports_eq_zero_iff :
    (applyInOrder inlineImports t).total = 0 ↔
      ¬ "import \"google/protobuf/struct.proto\";".toList <:+: t ∧
        ¬ "import \"google/protobuf/timestamp.proto\";".toList <:+: t := by
  rw [total_eq_zero_iff]
  simp only [inlineImports, List.forall_mem_cons, List.not_mem_nil, false_imp_iff, implies_true,
    and_true]
  exact and_congr (Text.count_replace_eq_zero_iff (by decide) _ _)
    (Text.count_replace_eq_zero_iff (by decide) _ _)

theorem stripImports_sublist (t : Text) : (stripImports.apply t).text <+ t :=
  Pattern.replace_sublist fun _ _ => List.nil_sublist _

theorem count_quote_stripImports (t : Text) :
    (stripImports.apply t).text.count '"' + (stripImports.apply t).count * 2 = t.count '"' := by
  refine Pattern.countP_replace fun span member => ?_
  exact (ImportStatement.isStatement_of_mem_spans member).count_quote

theorem count_stripImports_eq_zero_iff :
    (stripImports.apply t).count = 0 ↔ ¬ ImportStatement.StandsIn t :=
  ImportStatement.count_replace_eq_zero_iff

theorem rename_lead_ne_nil (type : String) : "google.protobuf.".toList ++ type.toList ≠ [] := by
  exact List.append_ne_nil_of_left_ne_nil (by decide) _

theorem rename_sublist (type : String) (t : Text) : ((rename type).apply t).text <+ t :=
  Text.replace_sublist (rename_lead_ne_nil type) (List.sublist_append_right _ _)

/-- A shortened name loses the name of its package. -/
theorem length_rename (type : String) (t : Text) :
    ((rename type).apply t).text.length + ((rename type).apply t).count * 16 = t.length := by
  rw [← List.countP_true]
  refine Text.countP_replace (rename_lead_ne_nil type) ?_
  rw [List.countP_true, List.length_append, Nat.add_comm]
  rfl

theorem renameTypes_sublist (t : Text) : (applyInOrder renameTypes t).text <+ t := by
  refine applyInOrder_sublist (fun rule member s => ?_) t
  obtain ⟨type, _, rfl⟩ := List.mem_map.mp member
  exact rename_sublist type s

theorem length_renameTypes (t : Text) :
    (applyInOrder renameTypes t).text.length + (applyInOrder renameTypes t).total * 16 =
      t.length := by
  rw [← List.countP_true]
  refine countP_applyInOrder (fun rule member s => ?_) t
  obtain ⟨type, _, rfl⟩ := List.mem_map.mp member
  rw [List.countP_true]
  exact length_rename type s

theorem lineByLine_renameTypes : LineByLine (edit renameTypes) := by
  have unbroken : ∀ type ∈ ["Struct", "Value", "Timestamp", "ListValue", "NullValue"],
      '\n' ∉ "google.protobuf.".toList ++ type.toList := by
    decide
  refine lineByLine_edit (List.forall_mem_map.mpr fun type known => ?_)
  exact (lineByLine_apply_iff rfl).mpr (unbroken type known)

/-- No name is shortened exactly if none of the five stands in the text; a rule that finds nothing
leaves the text to the next one as it was. -/
theorem total_renameTypes_eq_zero_iff :
    (applyInOrder renameTypes t).total = 0 ↔
      ∀ type ∈ ["Struct", "Value", "Timestamp", "ListValue", "NullValue"],
        ¬ "google.protobuf.".toList ++ type.toList <:+: t := by
  rw [total_eq_zero_iff, renameTypes, List.forall_mem_map]
  refine forall₂_congr fun type _ => ?_
  exact Text.count_replace_eq_zero_iff (rename_lead_ne_nil type) _ _

end ProtoPrep.Rule
