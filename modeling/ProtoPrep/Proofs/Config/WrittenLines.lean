import Mathlib.Algebra.GroupWithZero.Nat
import Mathlib.Tactic.TFAE
import ProtoPrep.Config.Basic
import ProtoPrep.Proofs.Generated.PragmaBlock
import ProtoPrep.Proofs.Generated.WrapperInclude

/-!
# The lines a configuration writes

The comments of a configuration are written on the lines of their pragmas, and its service
name is written inside directives. They stay there exactly if they hold no line feed: then a
block has a line for each warning between its banner and an empty line, and each directive
is one line. The check of a configuration does not ask for this. A name or a comment with a
line feed is accepted, and what stands behind the line feed becomes a line of the source.
-/

namespace ProtoPrep

open scoped List

namespace PragmaBlock

open Text

variable {warnings : List Warning}

theorem lines_body (unbroken : ∀ warning ∈ warnings, '\n' ∉ warning.comment) :
    (body warnings).lines = warnings.map line ++ [[]] ++ [[]] := by
  induction warnings with
  | nil => decide
  | cons warning warnings ih =>
    obtain ⟨here, later⟩ := List.forall_mem_cons.mp unbroken
    rw [body_cons, lines_append_lineFeed, lines_of_unbroken (isLine_line here).unbroken, ih later]
    rfl

theorem lines_render (unbroken : ∀ warning ∈ warnings, '\n' ∉ warning.comment) :
    (render warnings).lines = banner :: (warnings.map line ++ [[]]) ++ [[]] := by
  have title : banner.lines = [banner] := lines_of_unbroken (by decide)
  rw [render_eq, lines_append_lineFeed, title, lines_body unbroken]
  rfl

theorem count_lineFeed_trailer (comment : Text) :
    (trailer comment).count '\n' = comment.count '\n' := by
  have mark : " // ".toList.count '\n' = 0 := by decide
  rw [trailer]
  split
  · rename_i empty
    rw [empty]
  · rw [List.count_append, mark, Nat.zero_add]

/-- The line feeds of a pragma are those of its comment. -/
theorem count_lineFeed_line (warning : Warning) :
    (line warning).count '\n' = warning.comment.count '\n' := by
  have opened : opening.count '\n' = 0 := by decide
  have numbered : (Nat.toDigits 10 warning.code.toNat).count '\n' = 0 := by
    have digits := (Json.isWhole_toDigits warning.code.toNat).1
    exact List.count_eq_zero.mpr fun member => absurd (digits.2 _ member) (by decide)
  have bracket : ')' ≠ '\n' := by decide
  rw [line_eq, List.count_append, List.count_append, List.count_cons_of_ne bracket, opened,
    numbered, count_lineFeed_trailer, Nat.zero_add, Nat.zero_add]

/-- Every line feed beyond those of the lines comes from a comment. -/
theorem count_lineFeed_body (warnings : List Warning) :
    (body warnings).count '\n' =
      warnings.length + 1 + (warnings.map fun warning => warning.comment.count '\n').sum := by
  induction warnings with
  | nil => decide
  | cons warning warnings ih =>
    rw [body_cons, List.count_append, List.count_cons_self, count_lineFeed_line, ih, List.map_cons,
      List.sum_cons, List.length_cons]
    omega

/-- A block has a line for each warning and two more, and one more for each line feed of a
comment. -/
theorem length_lines_render (warnings : List Warning) :
    (render warnings).lines.dropLast.length =
      warnings.length + 2 + (warnings.map fun warning => warning.comment.count '\n').sum := by
  have title : banner.count '\n' = 0 := by decide
  rw [List.length_dropLast, length_lines, Nat.add_sub_cancel, render_eq, List.count_append,
    List.count_cons_self, count_lineFeed_body, title]
  omega

end PragmaBlock

namespace WrapperInclude

variable {service : Text} {ending : String}

/-- The name of the service is all of a directive that can hold a line feed. -/
theorem lineFeed_mem_directive_iff (plain : '\n' ∉ ending.toList) :
    '\n' ∈ directive service ending ↔ '\n' ∈ service := by
  have opening : '\n' ∉ "#include \"Wrappers/".toList := by decide
  unfold directive
  generalize "#include \"Wrappers/".toList = front at opening
  simp [opening, plain]

theorem lineFeed_not_mem_endings :
    ∀ pair ∈ endings, '\n' ∉ pair.1.toList ∧ '\n' ∉ pair.2.toList := by
  decide

theorem lineFeed_not_mem_renamings_iff :
    (∀ pair ∈ renamings service, '\n' ∉ pair.1 ∧ '\n' ∉ pair.2) ↔ '\n' ∉ service := by
  rw [renamings_eq, List.forall_mem_map]
  constructor
  · intro single
    have known : ("pb.hpp", "pb.h") ∈ endings := List.mem_cons_self
    have plain := lineFeed_not_mem_endings _ known
    exact mt (lineFeed_mem_directive_iff plain.1).mpr (single _ known).1
  · intro unbroken pair known
    have plain := lineFeed_not_mem_endings pair known
    exact ⟨mt (lineFeed_mem_directive_iff plain.1).mp unbroken,
      mt (lineFeed_mem_directive_iff plain.2).mp unbroken⟩

end WrapperInclude

namespace Config

open PragmaBlock WrapperInclude

/-- The block of a configuration consists of the banner, a line for each warning and an empty line
exactly if no comment holds a line feed, and otherwise it has more lines than that. The directives
of its service are single lines exactly if the name holds no line feed. -/
theorem written_lines (config : Config) :
    [∀ warning ∈ config.warnings, '\n' ∉ warning.comment,
      (PragmaBlock.render config.warnings).lines.dropLast =
        banner :: (config.warnings.map line ++ [[]]),
      (PragmaBlock.render config.warnings).lines.dropLast.length =
        config.warnings.length + 2].TFAE ∧
    (∀ warning ∈ config.warnings, opening <+: line warning) ∧
    ((∀ pair ∈ renamings config.serviceName, '\n' ∉ pair.1 ∧ '\n' ∉ pair.2) ↔
      '\n' ∉ config.serviceName) := by
  refine ⟨?_, ?_, lineFeed_not_mem_renamings_iff⟩
  · tfae_have 1 → 2 := by
      intro unbroken
      rw [lines_render unbroken, List.dropLast_concat]
    tfae_have 2 → 3 := by
      intro whole
      rw [whole, List.length_cons, List.length_append, List.length_map]
      rfl
    tfae_have 3 → 1 := by
      intro many warning member
      rw [length_lines_render] at many
      have none : (config.warnings.map fun warning => warning.comment.count '\n').sum = 0 := by
        omega
      rw [List.sum_eq_zero_iff_forall_eq_nat] at none
      exact List.count_eq_zero.mp (none _ (List.mem_map_of_mem member))
    tfae_finish
  · intro warning _
    rw [line_eq]
    exact List.prefix_append _ _

/-- A configuration that is accepted although a line feed stands in its name and in a comment. A
line of the source begins with what follows in the comment, and no directive is a single line. -/
theorem written_lines_of_lineFeeds :
    let config : Config := { Config.default with
      serviceName := "a\nb".toList
      warnings := [⟨1, "c\nint d;".toList⟩] }
    config.check = .ok () ∧
      (PragmaBlock.render config.warnings).lines.dropLast =
        [banner, "#pragma warning (disable : 1) // c".toList, "int d;".toList, []] ∧
      (PragmaBlock.render config.warnings).lines.dropLast.length ≠ config.warnings.length + 2 ∧
      ∀ pair ∈ renamings config.serviceName, '\n' ∈ pair.1 ∧ '\n' ∈ pair.2 := by
  decide +kernel

end Config

end ProtoPrep
