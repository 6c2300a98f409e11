import ProtoPrep.Text.CharClass
import ProtoPrep.Text.Pattern

/-!
# Import statements

An import statement is the word `import` at the beginning of a word, blanks, an
optional modifier with blanks after it, a path in double quotes, and a semicolon
that blanks may precede. The path is everything up to the next double quote, line
feeds included.
-/

namespace ProtoPrep.ImportStatement

def modifiers : List Text :=
  ["public".toList, "weak".toList]

/-- What follows a modifier and its blanks, or the text itself if there is none. -/
def afterModifier (t : Text) : Text :=
  (modifiers.findSome? fun word => (word.after? t).bind Text.afterBlanks?).getD t

def afterPath? : Text → Option Text
  | '"' :: rest =>
    match rest.dropWhile (· ≠ '"') with
    | [] => none
    | _ :: after => some after
  | _ => none

/-- What follows a semicolon that blanks may precede. -/
def afterSemicolon? (t : Text) : Option Text :=
  Text.after? [';'] t.dropBlanks

def rest? (t : Text) : Option Text :=
  (((Text.after? "import".toList t).bind Text.afterBlanks?).map afterModifier).bind fun r =>
    (afterPath? r).bind afterSemicolon?

theorem afterBlanks?_ending {t rest : Text} (h : t.afterBlanks? = some rest) :
    rest <:+ t ∧ rest.length < t.length := by
  cases t with
  | nil => simp [Text.afterBlanks?] at h
  | cons c r =>
    simp only [Text.afterBlanks?] at h
    split at h
    · cases h
      have ending : Text.dropBlanks r <:+ r := List.dropWhile_suffix isBlank
      have bound := ending.length_le
      exact ⟨ending.trans (List.suffix_cons c r), by simpa using Nat.lt_succ_of_le bound⟩
    · cases h

theorem afterModifier_ending (t : Text) : afterModifier t <:+ t := by
  simp only [afterModifier]
  cases found : modifiers.findSome? fun word => (word.after? t).bind Text.afterBlanks? with
  | none => exact List.suffix_rfl
  | some rest =>
    obtain ⟨word, _, hw⟩ := List.exists_of_findSome?_eq_some found
    obtain ⟨r, hr, hs⟩ := Option.bind_eq_some_iff.mp hw
    exact (afterBlanks?_ending hs).1.trans ⟨word, Text.after?_eq_some_iff.mp hr⟩

theorem afterPath?_ending {t rest : Text} (h : afterPath? t = some rest) : rest <:+ t := by
  simp only [afterPath?] at h
  split at h
  · rename_i r
    split at h
    · cases h
    · rename_i c after drop
      obtain rfl := Option.some.inj h
      have quoted : after <:+ r := (List.suffix_cons c after).trans (drop ▸ List.dropWhile_suffix _)
      exact quoted.trans (List.suffix_cons _ _)
  · cases h

theorem afterSemicolon?_ending {t rest : Text} (h : afterSemicolon? t = some rest) :
    rest <:+ t :=
  List.IsSuffix.trans ⟨[';'], Text.after?_eq_some_iff.mp h⟩ (List.dropWhile_suffix isBlank)

theorem rest?_ending {t rest : Text} (h : rest? t = some rest) :
    rest <:+ t ∧ rest.length < t.length := by
  obtain ⟨r, hr, hs⟩ := Option.bind_eq_some_iff.mp h
  obtain ⟨s, hs', hm⟩ := Option.map_eq_some_iff.mp hr
  obtain ⟨u, hu, hb⟩ := Option.bind_eq_some_iff.mp hs'
  obtain ⟨v, hv, hc⟩ := Option.bind_eq_some_iff.mp hs
  have word : u <:+ t := ⟨_, Text.after?_eq_some_iff.mp hu⟩
  have blanks := afterBlanks?_ending hb
  have tail : rest <:+ s := by
    rw [← hm] at hv
    exact ((afterSemicolon?_ending hc).trans (afterPath?_ending hv)).trans (afterModifier_ending s)
  exact ⟨(tail.trans blanks.1).trans word,
    Nat.lt_of_le_of_lt tail.length_le (Nat.lt_of_lt_of_le blanks.2 word.length_le)⟩

end ProtoPrep.ImportStatement

namespace ProtoPrep

def Pattern.importStatement : Pattern :=
  .ofRest wordMayBegin ImportStatement.rest? ImportStatement.rest?_ending

end ProtoPrep
