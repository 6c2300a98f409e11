import ProtoPrep.Text.CharClass
import ProtoPrep.Text.Pattern

/-!
# The beginning of an option

An option statement is recognised by the word `option`, at most one blank, and the
name of the option in parentheses.
-/

namespace ProtoPrep

namespace OptionTrigger

theorem ending_of_after? {lead t rest : Text} (h : lead.after? t = some rest) :
    rest <:+ t ∧ rest.length + lead.length = t.length := by
  have whole := Text.after?_eq_some_iff.mp h
  refine ⟨⟨lead, whole⟩, ?_⟩
  rw [← whole, List.length_append, Nat.add_comm]

/-- A text without its first character if that is a blank. -/
def dropBlank : Text → Text
  | [] => []
  | c :: rest => if isBlank c then rest else c :: rest

theorem dropBlank_ending (t : Text) : dropBlank t <:+ t := by
  cases t with
  | nil => exact List.suffix_rfl
  | cons c rest =>
    simp only [dropBlank]
    split
    · exact List.suffix_cons c rest
    · exact List.suffix_rfl

def rest? (name t : Text) : Option Text :=
  (Text.after? "option".toList t).bind fun r => Text.after? ('(' :: name ++ [')']) (dropBlank r)

theorem rest?_ending {name t rest : Text} (h : rest? name t = some rest) :
    rest <:+ t ∧ rest.length < t.length := by
  obtain ⟨r, hr, hs⟩ := Option.bind_eq_some_iff.mp h
  obtain ⟨first, firstLength⟩ := ending_of_after? hr
  obtain ⟨second, secondLength⟩ := ending_of_after? hs
  have middle := (dropBlank_ending r).length_le
  refine ⟨second.trans ((dropBlank_ending r).trans first), ?_⟩
  simp only [List.length_cons, List.length_append] at secondLength
  omega

end OptionTrigger

def Pattern.optionTrigger (name : Text) : Pattern :=
  .ofRest (fun _ => true) (OptionTrigger.rest? name) OptionTrigger.rest?_ending

end ProtoPrep
