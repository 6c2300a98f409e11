import Mathlib.Tactic.TFAE
import ProtoPrep.Proofs.Schema.GatewayOption
import ProtoPrep.Proofs.Schema.HttpOption
import ProtoPrep.Proofs.Schema.Rule
import ProtoPrep.Schema.Reduction

/-!
# What a reduction keeps

A reduction adds nothing to a schema but the definitions that stand for imports,
and moves nothing: it leaves a subsequence of the schema with its well-known
imports replaced. Its report is empty exactly if the schema is kept as it is, which
is so exactly if there was nothing to reduce.
-/

namespace ProtoPrep

open scoped List

theorem Report.isEmpty_iff (report : Report) : report.isEmpty = true ↔
    report.region = none ∧ report.inlined = 0 ∧ report.stripped = 0 ∧ report.httpOptions = 0 ∧
      report.renamed = 0 := by
  cases report
  rw [Report.isEmpty, decide_eq_true_iff, Report.mk.injEq]

namespace Reduction

def ungated (source : Text) : Text :=
  (GatewayOption.remove source).1

/-- What step 3 is given. -/
def inlined (source : Text) : Text :=
  (Rule.applyInOrder Rule.inlineImports (ungated source)).text

/-- What step 4 is given. -/
def importless (source : Text) : Text :=
  (Rule.stripImports.apply (inlined source)).text

/-- What step 5 is given. -/
def optionless (source : Text) : Text :=
  HttpOption.strip (importless source)

theorem remove_eq (source : Text) :
    GatewayOption.remove source = (ungated source, GatewayOption.region? source.lines) :=
  Prod.ext rfl (GatewayOption.remove_snd source)

theorem text_eq (source : Text) :
    (reduce source).text = (Rule.applyInOrder Rule.renameTypes (optionless source)).text := by
  rw [reduce, remove_eq, optionless, importless, inlined]

theorem report_eq (source : Text) : (reduce source).report =
    { region := GatewayOption.region? source.lines
      inlined := (Rule.applyInOrder Rule.inlineImports (ungated source)).total
      stripped := (Rule.stripImports.apply (inlined source)).count
      httpOptions := HttpOption.count (importless source)
      renamed := (Rule.applyInOrder Rule.renameTypes (optionless source)).total } := by
  rw [reduce, remove_eq, optionless, importless, inlined]

/-- Behind the inlined definitions every step only takes characters away. -/
theorem text_sublist_inlined (source : Text) : (reduce source).text <+ inlined source := by
  have stripped := Rule.stripImports_sublist (inlined source)
  have renamed := Rule.renameTypes_sublist (optionless source)
  rw [← importless] at stripped
  rw [← text_eq] at renamed
  exact (renamed.trans (HttpOption.strip_sublist (importless source))).trans stripped

end Reduction

/-- No step finds anything to act on in a schema. -/
structure NothingToReduce (source : Text) : Prop where
  noGateway : GatewayOption.region? source.lines = none
  noStructImport : ¬ "import \"google/protobuf/struct.proto\";".toList <:+: source
  noTimestampImport : ¬ "import \"google/protobuf/timestamp.proto\";".toList <:+: source
  noImport : ¬ ImportStatement.StandsIn source
  noOption : ∀ lead trigger value, IsTrigger HttpOption.name trigger →
    source = lead ++ (trigger ++ value) → OptionValue.rest? value = none
  noQualified : ∀ type ∈ ["Struct", "Value", "Timestamp", "ListValue", "NullValue"],
    ¬ "google.protobuf.".toList ++ type.toList <:+: source

namespace Reduction

variable {source : Text}

/-- The report is empty exactly if each step for itself finds nothing in the schema: as long as a
step reports nothing, it hands on the text it was given. -/
theorem isEmpty_iff (source : Text) : (reduce source).report.isEmpty = true ↔
    GatewayOption.region? source.lines = none ∧
      (Rule.applyInOrder Rule.inlineImports source).total = 0 ∧
      (Rule.stripImports.apply source).count = 0 ∧ HttpOption.count source = 0 ∧
      (Rule.applyInOrder Rule.renameTypes source).total = 0 := by
  rw [Report.isEmpty_iff, report_eq]
  refine and_congr_right fun region => ?_
  have first : ungated source = source := GatewayOption.remove_of_none region
  rw [inlined, first]
  refine and_congr_right fun wellKnown => ?_
  rw [importless, inlined, first, Rule.text_of_total_eq_zero wellKnown]
  refine and_congr_right fun imports => ?_
  rw [optionless, importless, inlined, first, Rule.text_of_total_eq_zero wellKnown,
    Rule.text_apply_of_count_eq_zero imports]
  refine and_congr_right fun options => ?_
  rw [HttpOption.strip_of_count_eq_zero options]

theorem text_eq_of_isEmpty (empty : (reduce source).report.isEmpty = true) :
    (reduce source).text = source := by
  obtain ⟨region, wellKnown, imports, options, names⟩ := (isEmpty_iff source).mp empty
  have first : ungated source = source := GatewayOption.remove_of_none region
  rw [text_eq, optionless, importless, inlined, first, Rule.text_of_total_eq_zero wellKnown,
    Rule.text_apply_of_count_eq_zero imports, HttpOption.strip_of_count_eq_zero options,
    Rule.text_of_total_eq_zero names]

/-- A report is empty exactly if no step has found anything, since each step is then given the
schema itself. -/
theorem isEmpty_iff_nothingToReduce (source : Text) :
    (reduce source).report.isEmpty = true ↔ NothingToReduce source := by
  rw [isEmpty_iff, Rule.total_inlineImports_eq_zero_iff, Rule.count_stripImports_eq_zero_iff,
    HttpOption.count_eq_zero_iff, Rule.total_renameTypes_eq_zero_iff]
  constructor
  · rintro ⟨region, ⟨structs, timestamps⟩, imports, options, names⟩
    exact ⟨region, structs, timestamps, imports, options, names⟩
  · rintro ⟨region, structs, timestamps, imports, options, names⟩
    exact ⟨region, ⟨structs, timestamps⟩, imports, options, names⟩

/-- The definitions make a text longer, but they hold no double quotes, and each import that goes
takes two of them along. -/
theorem count_quote_text (source : Text) : (reduce source).text.count '"' +
    ((reduce source).report.inlined + (reduce source).report.stripped) * 2 ≤
      source.count '"' := by
  have gateway : (ungated source).count '"' ≤ source.count '"' :=
    (GatewayOption.remove_sublist source).count_le '"'
  have wellKnown := Rule.count_quote_inlineImports (ungated source)
  have imports := Rule.count_quote_stripImports (inlined source)
  have options : (optionless source).count '"' ≤ (importless source).count '"' :=
    (HttpOption.strip_sublist (importless source)).count_le '"'
  have names := (Rule.renameTypes_sublist (optionless source)).count_le '"'
  rw [← text_eq] at names
  rw [← inlined] at wellKnown
  rw [← importless] at imports
  rw [report_eq]
  dsimp only
  omega

/-- Without replacements every step shortens the text that it changes. -/
theorem length_text (source : Text)
    (kept : (reduce source).report.inlined + (reduce source).report.stripped = 0) :
    (reduce source).text.length + (reduce source).report.httpOptions +
      (reduce source).report.renamed ≤ (ungated source).length := by
  rw [report_eq] at kept ⊢
  dsimp only at kept ⊢
  obtain ⟨wellKnown, imports⟩ := Nat.add_eq_zero_iff.mp kept
  have second : inlined source = ungated source := Rule.text_of_total_eq_zero wellKnown
  have third : importless source = inlined source := Rule.text_apply_of_count_eq_zero imports
  have options := HttpOption.strip_length_le (importless source)
  have names := Rule.length_renameTypes (optionless source)
  rw [← text_eq] at names
  rw [← optionless] at options
  rw [← second, ← third]
  omega

/-- Insertions and removals do not cancel out. -/
theorem isEmpty_of_text_eq (same : (reduce source).text = source) :
    (reduce source).report.isEmpty = true := by
  have quotes := count_quote_text source
  have lengths := length_text source
  rw [same] at quotes lengths
  have kept : (reduce source).report.inlined + (reduce source).report.stripped = 0 := by omega
  have shorter := lengths kept
  have gateway := (GatewayOption.remove_sublist source).length_le
  have region : (reduce source).report.region = none := by
    rw [report_eq]
    by_contra some_cut
    obtain ⟨region, found⟩ := Option.ne_none_iff_exists'.mp some_cut
    have cut := GatewayOption.remove_length_lt found
    rw [← ungated] at cut
    omega
  rw [← ungated] at gateway
  refine (Report.isEmpty_iff _).mpr ⟨region, ?_, ?_, ?_, ?_⟩ <;> omega

end Reduction

/-- The report is empty, the text is kept and there was nothing to reduce: each says the same. -/
theorem reduce_unchanged_tfae (source : Text) :
    [(reduce source).report.isEmpty = true, (reduce source).text = source,
      NothingToReduce source].TFAE := by
  tfae_have 1 → 2 := Reduction.text_eq_of_isEmpty
  tfae_have 2 → 1 := Reduction.isEmpty_of_text_eq
  tfae_have 1 ↔ 3 := Reduction.isEmpty_iff_nothingToReduce source
  tfae_finish

namespace Reduction

/-- The imports of well-known files are replaced on each line for itself. -/
theorem inlineImports_unlines (ls : List Text) :
    (Rule.applyInOrder Rule.inlineImports (Text.unlines ls)).text =
      Text.unlines (ls.map fun l => (Rule.applyInOrder Rule.inlineImports l).text) := by
  cases ls with
  | nil =>
    have quotes := Rule.count_quote_inlineImports []
    rw [List.count_nil] at quotes
    have unmatched : (Rule.applyInOrder Rule.inlineImports []).total = 0 := by omega
    exact Rule.text_of_total_eq_zero unmatched
  | cons l ls =>
    have divided := Rule.lineByLine_inlineImports.splits.unlines (List.cons_ne_nil l ls)
    exact congrArg Edit.text divided

/-- Cutting out lines first or replacing imports first comes to the same for what stays. -/
theorem inlined_sublist (source : Text) :
    inlined source <+ (Rule.applyInOrder Rule.inlineImports source).text := by
  have kept := (GatewayOption.keptLines_sublist source).map fun l =>
    (Rule.applyInOrder Rule.inlineImports l).text
  have joined := Text.unlines_sublist kept
  rwa [← inlineImports_unlines, ← inlineImports_unlines, Text.unlines_lines,
    ← GatewayOption.remove_fst] at joined

theorem inlined_sublist_source {source : Text} (none_inlined : (reduce source).report.inlined = 0) :
    inlined source <+ source := by
  rw [report_eq] at none_inlined
  rw [inlined, Rule.text_of_total_eq_zero none_inlined]
  exact GatewayOption.remove_sublist source

end Reduction

/-- A reduction is a subsequence of the schema with its well-known imports replaced, and of the
schema itself if none was replaced. -/
theorem reduce_sublist (source : Text) :
    (reduce source).text <+ (Rule.applyInOrder Rule.inlineImports source).text ∧
      ((reduce source).report.inlined = 0 → (reduce source).text <+ source) := by
  have reduced := Reduction.text_sublist_inlined source
  constructor
  · exact reduced.trans (Reduction.inlined_sublist source)
  · intro none_inlined
    exact reduced.trans (Reduction.inlined_sublist_source none_inlined)

end ProtoPrep
