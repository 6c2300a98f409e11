import ProtoPrep.Proofs.Generated.PragmaBlock
import ProtoPrep.Proofs.Generated.WrapperInclude

/-!
# The order of patches

What the fix of includes looks for begins with `#include`, whatever the service is called. A
block holds that word only in a comment, and since it ends in a line feed, the word does not
reach from the block into the text behind it. So the fix takes no notice of a block in front
of the text, as long as no comment holds the word.
-/

namespace ProtoPrep.WrapperInclude

open scoped List
open Text PragmaBlock

def keyword : Text :=
  "#include".toList

variable {warning : Warning} {warnings : List Warning}

theorem keyword_ne_nil : keyword ≠ [] := by
  decide

theorem not_keyword_infix_trailer {comment : Text} (free : ¬ keyword <:+: comment) :
    ¬ keyword <:+: trailer comment := by
  rw [trailer]
  split
  · exact mt List.infix_nil.mp keyword_ne_nil
  · have mark : " // ".toList ++ comment = " //".toList ++ ' ' :: comment := rfl
    rw [mark, infix_append_cons_iff keyword_ne_nil (by decide), not_or]
    exact ⟨by decide, free⟩

/-- The word holds neither a blank nor a bracket, so it stands in one of the parts between them. -/
theorem not_keyword_infix_line (free : ¬ keyword <:+: warning.comment) :
    ¬ keyword <:+: line warning := by
  have front : opening = "#pragma warning (disable :".toList ++ [' '] := by decide
  rw [line_eq, front, List.append_assoc, List.singleton_append,
    infix_append_cons_iff keyword_ne_nil (by decide),
    infix_append_cons_iff keyword_ne_nil (by decide), not_or, not_or]
  refine ⟨by decide, ?_, not_keyword_infix_trailer free⟩
  intro inside
  have digits := (Json.isWhole_toDigits warning.code.toNat).1
  have digit : '#'.isDigit = true := digits.2 _ (inside.subset (by decide))
  exact absurd digit (by decide)

/-- The lines that turn warnings off begin with another directive. -/
theorem not_keyword_infix_body (free : ∀ warning ∈ warnings, ¬ keyword <:+: warning.comment) :
    ¬ keyword <:+: body warnings := by
  induction warnings with
  | nil => decide
  | cons warning warnings ih =>
    obtain ⟨here, later⟩ := List.forall_mem_cons.mp free
    rw [body_cons, infix_append_cons_iff keyword_ne_nil (by decide), not_or]
    exact ⟨not_keyword_infix_line here, ih later⟩

theorem unbegun_keyword (free : ∀ warning ∈ warnings, ¬ keyword <:+: warning.comment) :
    Unbegun keyword (render warnings) := by
  refine unbegun_of_getLast? List.getLast?_concat (by decide) ?_
  rw [render_eq, infix_append_cons_iff keyword_ne_nil (by decide), not_or]
  exact ⟨by decide, not_keyword_infix_body free⟩

/-- No directive begins in a block: its comments do not hold the keyword, and its last character is
a line feed, which no directive goes on with. -/
theorem unbegun_directive (free : ∀ warning ∈ warnings, ¬ keyword <:+: warning.comment)
    (service : Text) (ending : String) : Unbegun (directive service ending) (render warnings) := by
  have begins : directive service ending = keyword ++
      (" \"Wrappers/".toList ++ service ++ ['/'] ++ service ++ ['.'] ++ ending.toList ++
        ['"']) := by
    have opening : "#include \"Wrappers/".toList = keyword ++ " \"Wrappers/".toList := by decide
    unfold directive
    rw [opening]
    simp only [List.append_assoc]
  rw [begins]
  exact (unbegun_keyword free).append _

/-- The includes may be fixed before or after a block is put in front: the text is the same, and so
is the count. -/
theorem fix_prepend (service : Text)
    (free : ∀ warning ∈ warnings, ¬ "#include".toList <:+: warning.comment) (t : Text) :
    (fix service (prepend warnings t)).text = prepend warnings (fix service t).text ∧
      (fix service (prepend warnings t)).count = (fix service t).count := by
  have outside : ∀ made ∈ endings.map (rule service), ∃ lead, made.matcher = .literal lead ∧
      lead ≠ [] ∧ Unbegun lead (render warnings) := by
    rw [List.forall_mem_map]
    intro pair _
    exact ⟨_, rfl, directive_ne_nil service pair.1, unbegun_directive free service pair.1⟩
  obtain ⟨texts, totals⟩ := Rule.applyInOrder_append_of_unbegun outside t
  simp only [fix_eq, prepend, texts, totals, and_self]

/-- A service whose name holds a whole directive of its own, and a comment that breaks off in the
word. -/
theorem fix_prepend_of_broken_name :
    let service := "a\n#include \"Wrappers/b".toList
    let warnings : List Warning := [⟨1, "#includ".toList⟩, ⟨2, "e \"Wrappers/\n#".toList⟩]
    let t := "include \"".toList ++ directive service "pb.hpp"
    (∀ warning ∈ warnings, ¬ "#include".toList <:+: warning.comment) ∧
      fix service t = ⟨"include \"".toList ++ directive service "pb.h", 1⟩ ∧
      (fix service (prepend warnings t)).text = prepend warnings (fix service t).text ∧
      (fix service (prepend warnings t)).count = (fix service t).count := by
  intro service warnings t
  have free : ∀ warning ∈ warnings, ¬ "#include".toList <:+: warning.comment := by decide
  exact ⟨free, by decide +kernel, fix_prepend service free t⟩

end ProtoPrep.WrapperInclude
