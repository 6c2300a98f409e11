import ProtoPrep.Proofs.Config.WrittenLines

/-!
# The steps that look for given texts

Well-known imports and full names of types are looked for on one line, and so are the
includes of a service, unless its name holds a line feed. So these steps work line by
line, although a definition that stands for an import has lines of its own. For a name
with a line feed the directives are found in a text, but on none of its lines.
-/

namespace ProtoPrep

namespace WrapperInclude

variable {service : Text}

theorem fix_eq_edit (service : Text) :
    fix service = Rule.edit (endings.map (rule service)) :=
  funext (fix_eq service)

theorem lineByLine_fix (unbroken : '\n' ∉ service) : LineByLine (fix service) := by
  rw [fix_eq_edit]
  refine Rule.lineByLine_edit (List.forall_mem_map.mpr fun pair known => ?_)
  have plain := (lineFeed_not_mem_endings pair known).1
  have single : '\n' ∉ directive service pair.1 := mt (lineFeed_mem_directive_iff plain).mp unbroken
  exact (Rule.lineByLine_apply_iff rfl).mpr single

/-- A directive with a line feed stands on no line. -/
theorem fix_line_of_broken (broken : '\n' ∈ service) {l : Text} (line : '\n' ∉ l) :
    fix service l = ⟨l, 0⟩ := by
  refine fix_of_absent fun pair known inside => ?_
  have plain := (lineFeed_not_mem_endings pair known).1
  exact line (inside.subset ((lineFeed_mem_directive_iff plain).mpr broken))

/-- Each directive of a service is found in itself. -/
theorem count_fix_directive_ne_zero {pair : String × String} (known : pair ∈ endings) :
    (fix service (directive service pair.1)).count ≠ 0 := by
  intro unmatched
  rw [fix_eq] at unmatched
  have each := Rule.total_eq_zero_iff.mp unmatched (rule service pair) (List.mem_map_of_mem known)
  exact (Text.count_replace_eq_zero_iff (directive_ne_nil service pair.1) _ _).mp each
    List.infix_rfl

/-- A name with a line feed gives search strings that no line holds. -/
theorem lineByLine_fix_iff (service : Text) : LineByLine (fix service) ↔ '\n' ∉ service := by
  constructor
  · intro h broken
    have quiet (l : Text) (line : '\n' ∉ l) : (fix service l).count = 0 := by
      rw [fix_line_of_broken broken line]
    have known : ("pb.hpp", "pb.h") ∈ endings := List.mem_cons_self
    exact count_fix_directive_ne_zero known (h.count_eq_zero quiet _)
  · exact lineByLine_fix

/-- An include over two lines is renamed, but there is nothing to rename on either line. -/
example :
    let service := "a\nb".toList
    let t := directive service "pb.hpp"
    fix service t = ⟨directive service "pb.h", 1⟩ ∧
      t.lines.map (fun l => (fix service l).count) = [0, 0, 0] := by
  decide +kernel

end WrapperInclude

/-- Imports are replaced, names are shortened and includes are renamed line by line. For includes
the name of the service has to stand on one line itself. -/
theorem lineByLine_literal_steps :
    LineByLine (Rule.edit Rule.inlineImports) ∧ LineByLine (Rule.edit Rule.renameTypes) ∧
      ∀ service, LineByLine (WrapperInclude.fix service) ↔ '\n' ∉ service :=
  ⟨Rule.lineByLine_inlineImports, Rule.lineByLine_renameTypes, WrapperInclude.lineByLine_fix_iff⟩

/-- Each of three imports on two lines brings the five line feeds of its definition. -/
example :
    let timestamp := "import \"google/protobuf/timestamp.proto\";".toList
    let t : Text := timestamp ++ timestamp ++ '\n' :: timestamp
    t.lines.map (fun l => (Rule.edit Rule.inlineImports l).count) = [2, 1] ∧
      (Rule.edit Rule.inlineImports t).count = 3 ∧
      (Rule.edit Rule.inlineImports t).text.count '\n' = t.count '\n' + 3 * 5 := by
  decide +kernel

end ProtoPrep
