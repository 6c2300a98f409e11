import ProtoPrep.Text.Basic

/-!
# Patterns and their matches

A pattern says at each position of a text which match, if any, begins there. The
matches of a text are found from left to right and do not overlap; `cuts` keeps
them together with the gaps between them, so that counting the matches and
replacing them speak of the same matches. An edit is a text after a replacement together
with the number of replacements.
-/

namespace ProtoPrep

/-- What may match at a position: the match and the text after it, given the character before
the position. A match is not empty. -/
structure Pattern where
  at? : Option Char → Text → Option (Text × Text)
  append_eq : ∀ {before t span rest}, at? before t = some (span, rest) → span ++ rest = t
  ne_nil : ∀ {before t span rest}, at? before t = some (span, rest) → span ≠ []

/-- A text as gaps and the matches between them. -/
inductive Cuts where
  | last (gap : Text)
  | hit (gap span : Text) (rest : Cuts)
deriving DecidableEq

namespace Cuts

def grow (c : Char) : Cuts → Cuts
  | last gap => last (c :: gap)
  | hit gap span rest => hit (c :: gap) span rest

/-- The text that was cut. -/
def source : Cuts → Text
  | last gap => gap
  | hit gap span rest => gap ++ span ++ rest.source

def fill (new : Text) : Cuts → Text
  | last gap => gap
  | hit gap _ rest => gap ++ new ++ rest.fill new

def spans : Cuts → List Text
  | last _ => []
  | hit _ span rest => span :: rest.spans

/-- The gaps: one before each match, and the last. -/
def gaps : Cuts → List Text
  | last gap => [gap]
  | hit gap _ rest => gap :: rest.gaps

def count (cuts : Cuts) : Nat :=
  cuts.spans.length

@[simp] theorem source_grow (c : Char) (cuts : Cuts) : (cuts.grow c).source = c :: cuts.source := by
  cases cuts <;> simp [grow, source]

@[simp] theorem fill_grow (new : Text) (c : Char) (cuts : Cuts) :
    (cuts.grow c).fill new = c :: cuts.fill new := by
  cases cuts <;> simp [grow, fill]

@[simp] theorem spans_grow (c : Char) (cuts : Cuts) : (cuts.grow c).spans = cuts.spans := by
  cases cuts <;> simp [grow, spans]

@[simp] theorem count_grow (c : Char) (cuts : Cuts) : (cuts.grow c).count = cuts.count := by
  simp [count]

end Cuts

namespace Pattern

theorem rest_shorter (p : Pattern) {before : Option Char} {t span rest : Text}
    (h : p.at? before t = some (span, rest)) : rest.length < t.length := by
  have nonempty := List.length_pos_iff.mpr (p.ne_nil h)
  have whole := congrArg List.length (p.append_eq h)
  rw [List.length_append] at whole
  omega

set_option linter.unusedVariables false in
/-- The gaps and matches of a text that stands after the given character. -/
def cuts (p : Pattern) (before : Option Char) : Text → Cuts
  | [] => .last []
  | c :: r =>
    match h : p.at? before (c :: r) with
    | some (span, rest) => .hit [] span (p.cuts span.getLast? rest)
    | none => (p.cuts (some c) r).grow c
termination_by t => t.length
decreasing_by
  · exact p.rest_shorter h
  · simp

def occursIn (p : Pattern) (before : Option Char) : Text → Bool
  | [] => false
  | c :: r => (p.at? before (c :: r)).isSome || p.occursIn (some c) r

theorem source_cuts (p : Pattern) (before : Option Char) (t : Text) :
    (p.cuts before t).source = t := by
  fun_induction cuts p before t with
  | case1 => rfl
  | case2 before c r span rest h ih => simpa [Cuts.source, ih] using p.append_eq h
  | case3 before c r h ih => simp [ih]

/-- The pattern that a recogniser of endings describes: given a text, the recogniser returns what
follows the match at its beginning. The guard looks at the character before. -/
def ofRest (guard : Option Char → Bool) (rest? : Text → Option Text)
    (ending : ∀ {t rest}, rest? t = some rest → rest <:+ t ∧ rest.length < t.length) : Pattern where
  at? before t := if guard before then (rest? t).map fun rest => (t.before rest, rest) else none
  append_eq := by
    intro before t span rest h
    split at h
    · obtain ⟨r, hr, hp⟩ := Option.map_eq_some_iff.mp h
      cases hp
      exact Text.before_append (ending hr).1
    · cases h
  ne_nil := by
    intro before t span rest h
    split at h
    · obtain ⟨r, hr, hp⟩ := Option.map_eq_some_iff.mp h
      cases hp
      exact Text.before_ne_nil (ending hr).1 (ending hr).2
    · cases h

def literal (lead : Text) (nonempty : lead ≠ []) : Pattern where
  at? _ t := (lead.after? t).map fun rest => (lead, rest)
  append_eq := by
    intro before t span rest h
    obtain ⟨r, hr, hp⟩ := Option.map_eq_some_iff.mp h
    cases hp
    exact Text.after?_eq_some_iff.mp hr
  ne_nil := by
    intro before t span rest h
    obtain ⟨r, _, hp⟩ := Option.map_eq_some_iff.mp h
    cases hp
    exact nonempty

end Pattern

/-- A text after a replacement, and how many matches were replaced. -/
structure Edit where
  text : Text
  count : Nat
deriving DecidableEq

def Pattern.replace (p : Pattern) (new t : Text) : Edit :=
  ⟨(p.cuts none t).fill new, (p.cuts none t).count⟩

/-- Replace every occurrence of a text. The empty text occurs before every character and at the
end. -/
def Text.replace (lead new t : Text) : Edit :=
  if h : lead = [] then ⟨t.flatMap (fun c => new ++ [c]) ++ new, t.length + 1⟩
  else (Pattern.literal lead h).replace new t

end ProtoPrep
