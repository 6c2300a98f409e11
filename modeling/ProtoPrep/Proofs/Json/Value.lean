import ProtoPrep.Json.Pass
import ProtoPrep.Proofs.Json.Numeral
import ProtoPrep.Proofs.Json.StringLiteral

/-!
# The grammar of values

Passing over accepts exactly the values of the grammar, nested to any depth. The
grammar is written down without the stack of open brackets: a list or an object is
its items between two brackets. What a stack still owes is what ties the two.
-/

namespace ProtoPrep.Json

def Bracket.opening : Bracket → Char
  | .list => '['
  | .object => '\x7b'

/-- What an item has before its value: a key and a colon in an object, nothing in a list. -/
inductive Bracket.IsLabel : Bracket → Text → Prop where
  | none : Bracket.IsLabel .list []
  | key {literal before after : Text} : IsLiteral literal → IsSpacing before → IsSpacing after →
      Bracket.IsLabel .object (literal ++ (before ++ ':' :: after))

/-- A value without brackets. -/
inductive IsScalar : Text → Prop where
  | word {w : Text} : w ∈ ["null".toList, "true".toList, "false".toList] → IsScalar w
  | literal {s : Text} : IsLiteral s → IsScalar s
  | numeral {n : Numeral} {s : Text} : n.Spells s → IsScalar s

/-- An item of a list or an object is its label and its value. -/
def IsPart (part : Text × Text) (item : Text) : Prop :=
  item = part.1 ++ part.2

/-- A value of the grammar. The parts of a list or an object are labels and values. -/
inductive IsValue : Text → Prop where
  | scalar {s : Text} : IsScalar s → IsValue s
  | enclosed (bracket : Bracket) {parts : List (Text × Text)} {s : Text} :
      Items IsPart bracket.closing true parts s → (∀ part ∈ parts, bracket.IsLabel part.1) →
      (∀ part ∈ parts, IsValue part.2) → IsValue (bracket.opening :: s)

/-- One value of the grammar, with white space around it. -/
def IsDocument (t : Text) : Prop :=
  ∃ before v after, IsSpacing before ∧ IsValue v ∧ IsSpacing after ∧ t = before ++ (v ++ after)

theorem Bracket.closing_mem (bracket : Bracket) : bracket.closing ∈ [']', '\x7d'] := by
  cases bracket <;> simp [closing]

theorem Bracket.closing_not_mem_spaces (bracket : Bracket) : bracket.closing ∉ spaces := by
  cases bracket <;> decide

theorem expectWord_append (word rest : Text) : expectWord word (word ++ rest) = .ok rest := by
  induction word with
  | nil => rfl
  | cons w ws ih => rw [List.cons_append, expectWord, if_pos rfl, ih]

theorem eq_append_of_expectWord {word t rest : Text} (h : expectWord word t = .ok rest) :
    t = word ++ rest := by
  fun_induction expectWord word t with
  | case1 t => cases h; rfl
  | case2 => cases h
  | case3 ws c r ih => rw [ih h]; rfl
  | case4 => cases h

theorem Numeral.Spells.head {n : Numeral} {s : Text} (h : n.Spells s) :
    ∃ c r, s = c :: r ∧ (c = '-' ∨ c.isDigit = true) := by
  obtain ⟨whole, -, -⟩ := h
  rename_i negative _ _ _ _ _
  cases negative with
  | true => exact ⟨_, _, rfl, .inl rfl⟩
  | false =>
    obtain ⟨c, r, rfl⟩ := List.exists_cons_of_ne_nil whole.1.1
    exact ⟨c, _, rfl, .inr (whole.1.2 c List.mem_cons_self)⟩

/-- The first character of a numeral begins nothing else. -/
theorem numeral_head_ne {c d : Char} (h : c = '-' ∨ c.isDigit = true)
    (other : d.isDigit = false ∧ d ≠ '-') : c ≠ d := by
  rintro rfl
  exact h.elim other.2 fun digit => by simp [other.1] at digit

theorem IsLiteral.head {s : Text} (h : IsLiteral s) : ∃ r, s = '"' :: r := by
  obtain ⟨t, body, -, rfl⟩ := h
  exact ⟨_, rfl⟩

theorem IsScalar.head {s : Text} (h : IsScalar s) :
    ∃ c r, s = c :: r ∧ c ∉ spaces ∧ c ≠ ']' ∧ c ≠ '[' ∧ c ≠ '\x7b' := by
  cases h with
  | word member =>
    simp only [List.mem_cons, List.not_mem_nil, or_false] at member
    obtain rfl | rfl | rfl := member <;> exact ⟨_, _, rfl, by decide⟩
  | literal isLiteral =>
    obtain ⟨r, rfl⟩ := isLiteral.head
    exact ⟨_, _, rfl, by decide⟩
  | numeral spells =>
    obtain ⟨c, r, rfl, head⟩ := spells.head
    refine ⟨c, r, rfl, fun member => ?_, numeral_head_ne head (by decide),
      numeral_head_ne head (by decide), numeral_head_ne head (by decide)⟩
    have others : ∀ d ∈ spaces, d.isDigit = false ∧ d ≠ '-' := by simp [spaces]
    exact numeral_head_ne head (others c member) rfl

theorem IsValue.opens {v : Text} (h : IsValue v) : OpensItem v := by
  cases h with
  | scalar isScalar =>
    obtain ⟨c, r, rfl, token, opens, -⟩ := isScalar.head
    exact ⟨c, r, rfl, token, opens⟩
  | enclosed bracket =>
    exact ⟨_, _, rfl, by cases bracket <;> decide, by cases bracket <;> decide⟩

/-- A numeral is passed over to its end only if the text behind does not go on with it. -/
theorem passScalar_append {v rest : Text} (h : IsScalar v) (stops : Delimited rest) :
    passScalar (v ++ rest) = .ok rest := by
  cases h with
  | word member =>
    simp only [List.mem_cons, List.not_mem_nil, or_false] at member
    obtain rfl | rfl | rfl := member
    · exact expectWord_append "ull".toList rest
    · exact expectWord_append "rue".toList rest
    · exact expectWord_append "alse".toList rest
  | literal isLiteral =>
    obtain ⟨t, body, written, rfl⟩ := isLiteral
    rw [List.cons_append, List.append_assoc]
    exact passString_append written rest
  | @numeral n _ spells =>
    obtain ⟨c, r, rfl, head⟩ := spells.head
    have read : Numeral.read .invalidNumber (c :: (r ++ rest)) = .ok (n, rest) :=
      Numeral.read_append spells stops
    rw [List.cons_append]
    rw [passScalar, if_neg (numeral_head_ne head (by decide)),
      if_neg (numeral_head_ne head (by decide)), if_neg (numeral_head_ne head (by decide)),
      if_neg (numeral_head_ne head (by decide)), if_pos (by simpa using head), read]
    rfl

theorem exists_scalar_of_passScalar {t rest : Text} (h : passScalar t = .ok rest) :
    ∃ v, IsScalar v ∧ t = v ++ rest := by
  cases t with
  | nil => cases h
  | cons c r =>
    rw [passScalar] at h
    split at h
    · rename_i quote
      obtain ⟨u, body, written, rfl⟩ := exists_body_of_passString h
      exact ⟨_, .literal ⟨u, body, written, rfl⟩, by simp [quote]⟩
    · split at h
      · rename_i first
        rw [first, eq_append_of_expectWord h]
        exact ⟨"null".toList, .word (by simp), rfl⟩
      · split at h
        · rename_i first
          rw [first, eq_append_of_expectWord h]
          exact ⟨"true".toList, .word (by simp), rfl⟩
        · split at h
          · rename_i first
            rw [first, eq_append_of_expectWord h]
            exact ⟨"false".toList, .word (by simp), rfl⟩
          · split at h
            · obtain ⟨⟨numeral, after⟩, read, same⟩ := ok_of_map h
              cases same
              obtain ⟨s, spells, whole⟩ := Numeral.exists_spelling_of_read read
              exact ⟨s, .numeral spells, whole⟩
            · cases h

theorem passClosing_closing (bracket : Bracket) {space rest : Text} (spacing : IsSpacing space) :
    passClosing bracket (space ++ bracket.closing :: rest) = .ok (true, rest) := by
  rw [passClosing, skipSpace_append spacing, skipSpace_cons bracket.closing_not_mem_spaces]
  exact if_pos rfl

theorem passClosing_token {bracket : Bracket} {space rest : Text} {c : Char}
    (spacing : IsSpacing space) (token : c ∉ spaces) (opens : c ≠ bracket.closing) :
    passClosing bracket (space ++ c :: rest) = .ok (false, c :: rest) := by
  rw [passClosing, skipSpace_append spacing, skipSpace_cons token]
  exact if_neg opens

theorem exists_space_of_passClosing {bracket : Bracket} {closed : Bool} {t rest : Text}
    (h : passClosing bracket t = .ok (closed, rest)) :
    ∃ space, IsSpacing space ∧
      t = space ++ ((if closed then [bracket.closing] else []) ++ rest) := by
  obtain ⟨space, c, r, spacing, rfl, passed⟩ := exists_token h
  split at passed <;> cases passed
  · rename_i closes
    exact ⟨space, spacing, by rw [closes]; rfl⟩
  · exact ⟨space, spacing, rfl⟩

theorem passSeparator_append (bracket : Bracket) (closed : Bool) {space : Text}
    (spacing : IsSpacing space) (rest : Text) :
    passSeparator bracket (space ++ (if closed then bracket.closing else ',') :: rest) =
      .ok (closed, rest) := by
  rw [passSeparator, skipSpace_append spacing]
  cases closed with
  | true =>
    rw [if_pos rfl, skipSpace_cons bracket.closing_not_mem_spaces]
    exact if_pos rfl
  | false =>
    rw [if_neg Bool.false_ne_true, skipSpace_cons (by decide)]
    cases bracket <;> rfl

theorem exists_space_of_passSeparator {bracket : Bracket} {closed : Bool} {t rest : Text}
    (h : passSeparator bracket t = .ok (closed, rest)) :
    ∃ space, IsSpacing space ∧
      t = space ++ (if closed then bracket.closing else ',') :: rest := by
  obtain ⟨space, c, r, spacing, rfl, passed⟩ := exists_token h
  split at passed
  · rename_i closes
    cases passed
    exact ⟨space, spacing, by rw [closes]; rfl⟩
  · split at passed
    · rename_i comma
      cases passed
      exact ⟨space, spacing, by rw [comma]; rfl⟩
    · cases passed

theorem passKey_append {space literal before rest : Text} (spacing : IsSpacing space)
    (isLiteral : IsLiteral literal) (spacing' : IsSpacing before) :
    passKey (space ++ (literal ++ (before ++ ':' :: rest))) = .ok rest := by
  obtain ⟨t, body, written, rfl⟩ := isLiteral
  have first : skipSpace (space ++ ('"' :: (body ++ ['"']) ++ (before ++ ':' :: rest))) =
      '"' :: (body ++ '"' :: (before ++ ':' :: rest)) := by
    rw [skipSpace_append spacing, List.cons_append, List.append_assoc]
    exact skipSpace_cons (by decide) _
  have second : skipSpace (before ++ ':' :: rest) = ':' :: rest := by
    rw [skipSpace_append spacing']
    exact skipSpace_cons (by decide) _
  rw [passKey, first]
  simp only [if_true, passString_append written, second]

theorem exists_key_of_passKey {t rest : Text} (h : passKey t = .ok rest) :
    ∃ space literal before, IsSpacing space ∧ IsLiteral literal ∧ IsSpacing before ∧
      t = space ++ (literal ++ (before ++ ':' :: rest)) := by
  obtain ⟨space, c, r, spacing, rfl, key⟩ := exists_token h
  split at key
  · rename_i quote
    split at key
    · cases key
    · rename_i after passed
      obtain ⟨u, body, written, rfl⟩ := exists_body_of_passString passed
      obtain ⟨before, d, last, spacing', rfl, found⟩ := exists_token key
      split at found
      · rename_i colon
        cases found
        exact ⟨space, _, before, spacing, ⟨u, body, written, rfl⟩, spacing',
          by simp [quote, colon]⟩
      · cases found
  · cases key

variable {opened outer : List Bracket} {t rest : Text}

theorem passOn_separator {bracket : Bracket} {closed : Bool}
    (h : passSeparator bracket t = .ok (closed, rest)) :
    passOn .close (bracket :: outer) t =
      if closed then passOn .close outer rest
      else passOn bracket.element (bracket :: outer) rest := by
  rw [passOn]
  grind

theorem passOn_key (h : passKey t = .ok rest) :
    passOn .key opened t = passOn .value opened rest := by
  rw [passOn]
  grind

theorem passOn_beginning {inner : Option Bracket} (h : passBeginning t = .ok (inner, rest)) :
    passOn .value opened t = match inner with
      | none => passOn .close opened rest
      | some bracket => passOn bracket.element (bracket :: opened) rest := by
  rw [passOn]
  grind

theorem passBeginning_scalar {space v : Text} (spacing : IsSpacing space) (h : IsScalar v)
    (stops : Delimited rest) : passBeginning (space ++ (v ++ rest)) = .ok (none, rest) := by
  have passed := passScalar_append h stops
  obtain ⟨c, r, rfl, token, -, noList, noObject⟩ := h.head
  rw [List.cons_append] at passed ⊢
  simp only [passBeginning, skipSpace_append spacing, skipSpace_cons token, if_neg noList,
    if_neg noObject, passed, Except.map]

theorem passBeginning_opening (bracket : Bracket) {space : Text} (spacing : IsSpacing space)
    (t : Text) : passBeginning (space ++ bracket.opening :: t) =
      (passClosing bracket t).map fun (closed, after) =>
        (if closed then none else some bracket, after) := by
  have token : bracket.opening ∉ spaces := by cases bracket <;> decide
  simp only [passBeginning, skipSpace_append spacing, skipSpace_cons token]
  cases bracket <;> rfl

theorem exists_beginning_of_passBeginning {inner : Option Bracket}
    (h : passBeginning t = .ok (inner, rest)) : ∃ space, IsSpacing space ∧
      ((inner = none ∧ ∃ v, IsScalar v ∧ t = space ++ (v ++ rest)) ∨
        ∃ bracket r closed, t = space ++ bracket.opening :: r ∧
          passClosing bracket r = .ok (closed, rest) ∧
            inner = if closed then none else some bracket) := by
  obtain ⟨space, c, r, spacing, rfl, begun⟩ := exists_token h
  refine ⟨space, spacing, ?_⟩
  split at begun
  · rename_i opens
    obtain ⟨⟨closed, after⟩, passed, same⟩ := ok_of_map begun
    cases same
    exact .inr ⟨.list, r, closed, by rw [opens]; rfl, passed, rfl⟩
  · split at begun
    · rename_i opens
      obtain ⟨⟨closed, after⟩, passed, same⟩ := ok_of_map begun
      cases same
      exact .inr ⟨.object, r, closed, by rw [opens]; rfl, passed, rfl⟩
    · obtain ⟨after, passed, same⟩ := ok_of_map begun
      cases same
      obtain ⟨v, isScalar, whole⟩ := exists_scalar_of_passScalar passed
      exact .inl ⟨rfl, v, isScalar, by rw [whole]⟩

/-- A value is passed over behind white space, whatever brackets are open. -/
def Passed (v : Text) : Prop :=
  ∀ {opened : List Bracket} {space rest : Text}, IsSpacing space → Delimited rest →
    passOn .value opened (space ++ (v ++ rest)) = passOn .close opened rest

/-- An item is passed over when its value is, whatever brackets are open. -/
theorem passOn_item {bracket : Bracket} {space label v : Text} (spacing : IsSpacing space)
    (labelled : bracket.IsLabel label) (passed : Passed v) (stops : Delimited rest) :
    passOn bracket.element opened (space ++ (label ++ v ++ rest)) =
      passOn .close opened rest := by
  cases labelled with
  | none => exact passed spacing stops
  | key isLiteral spacing' spacing'' =>
    rw [Bracket.element, List.append_assoc, List.append_assoc, List.append_assoc,
      List.cons_append, passOn_key (passKey_append spacing isLiteral spacing')]
    exact passed spacing'' stops

theorem passOn_items {bracket : Bracket} {parts : List (Text × Text)} {s : Text}
    (items : Items IsPart bracket.closing false parts s)
    (labelled : ∀ part ∈ parts, bracket.IsLabel part.1) (passed : ∀ part ∈ parts, Passed part.2) :
    passOn .close (bracket :: outer) (s ++ rest) = passOn .close outer rest := by
  generalize again : false = first at items
  induction items with
  | closed spacing =>
    rw [List.append_assoc]
    exact passOn_separator (passSeparator_append bracket true spacing rest)
  | @item first gap item t part parts gapped same items ih =>
    subst again
    subst same
    obtain ⟨labelled, others⟩ := List.forall_mem_cons.mp labelled
    obtain ⟨passed, passedOthers⟩ := List.forall_mem_cons.mp passed
    cases gapped with
    | later spacing spacing' =>
      simp only [List.append_assoc, List.cons_append]
      refine (passOn_separator (passSeparator_append bracket false spacing _)).trans ?_
      rw [if_neg Bool.false_ne_true, ← List.append_assoc part.1,
        passOn_item spacing' labelled passed (items.delimited bracket.closing_mem rest)]
      exact ih others passedOthers rfl

theorem Bracket.IsLabel.head {bracket : Bracket} {label v : Text} (h : bracket.IsLabel label)
    (opens : OpensItem v) : ∃ c r, label ++ v = c :: r ∧ c ∉ spaces ∧ c ≠ bracket.closing := by
  cases h with
  | none =>
    obtain ⟨c, r, rfl, token, opens⟩ := opens
    exact ⟨c, r, rfl, token, opens⟩
  | key isLiteral =>
    obtain ⟨r, rfl⟩ := isLiteral.head
    exact ⟨_, _, rfl, by decide, by decide⟩

/-- The opening bracket looks for the closing one, so the first item has no comma before it; the
others are passed over as the rest of an open list or object. -/
theorem IsValue.passed {v : Text} (h : IsValue v) : Passed v := by
  induction h with
  | scalar isScalar =>
    intro opened space rest spacing stops
    exact passOn_beginning (passBeginning_scalar spacing isScalar stops)
  | enclosed bracket items labelled isValue passed =>
    intro opened space rest spacing stops
    cases items with
    | closed spacing' =>
      refine passOn_beginning (show passBeginning _ = .ok (none, rest) from ?_)
      rw [List.cons_append, List.append_assoc, passBeginning_opening bracket spacing]
      exact congrArg _ (passClosing_closing bracket spacing')
    | @item _ gap item t part parts gapped same items =>
      subst same
      obtain ⟨labelled, others⟩ := List.forall_mem_cons.mp labelled
      obtain ⟨value, -⟩ := List.forall_mem_cons.mp isValue
      obtain ⟨passed, passedOthers⟩ := List.forall_mem_cons.mp passed
      cases gapped with
      | first spacing' =>
        have opens : passBeginning (space ++ (bracket.opening ::
            (gap ++ (part.1 ++ part.2 ++ t)) ++ rest)) =
            .ok (some bracket, part.1 ++ part.2 ++ (t ++ rest)) := by
          obtain ⟨c, r, head, token, opens⟩ := labelled.head value.opens
          rw [List.cons_append, List.append_assoc, List.append_assoc, head,
            passBeginning_opening bracket spacing, List.cons_append,
            passClosing_token spacing' token opens]
          rfl
        calc
          _ = passOn bracket.element (bracket :: opened) (part.1 ++ part.2 ++ (t ++ rest)) :=
            passOn_beginning opens
          _ = passOn .close (bracket :: opened) (t ++ rest) :=
            passOn_item .nil labelled passed (items.delimited bracket.closing_mem rest)
          _ = passOn .close opened rest := passOn_items items others passedOthers

/-- What is still to come of the lists and objects that are open, the innermost first. -/
def Closes : List Bracket → Text → Prop
  | [], s => s = []
  | bracket :: outer, s => ∃ parts t r,
      Items IsPart bracket.closing false parts t ∧ (∀ part ∈ parts, bracket.IsLabel part.1) ∧
      (∀ part ∈ parts, IsValue part.2) ∧ Closes outer r ∧ s = t ++ r

theorem closes_nil {s : Text} : Closes [] s ↔ s = [] :=
  Iff.rfl

/-- A value with its label, and what is still to come of the open lists and objects. -/
def Continues (IsLabel : Text → Prop) (opened : List Bracket) (s : Text) : Prop :=
  ∃ space label v r, IsSpacing space ∧ IsLabel label ∧ IsValue v ∧ Closes opened r ∧
    s = space ++ (label ++ (v ++ r))

/-- What a text still holds at a stage. -/
def Owed : Stage → List Bracket → Text → Prop
  | .value, opened, s => Continues Bracket.list.IsLabel opened s
  | .key, opened, s => Continues Bracket.object.IsLabel opened s
  | .close, opened, s => Closes opened s

theorem owed_element {bracket : Bracket} {s : Text} :
    Owed bracket.element opened s = Continues bracket.IsLabel opened s := by
  cases bracket <;> rfl

/-- An item in front of what is still to come of its list or object. -/
theorem closes_of_continues {bracket : Bracket} {before s : Text} (spacing : IsSpacing before)
    (h : Continues bracket.IsLabel (bracket :: outer) s) :
    Closes (bracket :: outer) (before ++ ',' :: s) := by
  obtain ⟨space, label, v, _, spacing', labelled, value, ⟨parts, t, r, items, others, values,
    closes, rfl⟩, rfl⟩ := h
  exact ⟨(label, v) :: parts, _, r, .item (.later spacing spacing') rfl items,
    List.forall_mem_cons.mpr ⟨labelled, others⟩, List.forall_mem_cons.mpr ⟨value, values⟩, closes,
    by simp⟩

/-- The first item of a list or an object, and the other items, make a value. -/
theorem continues_of_continues {bracket : Bracket} {before space s : Text}
    (spacing : IsSpacing before) (spacing' : IsSpacing space)
    (h : Continues bracket.IsLabel (bracket :: opened) s) :
    Continues Bracket.list.IsLabel opened (before ++ bracket.opening :: (space ++ s)) := by
  obtain ⟨space', label, v, _, spacing'', labelled, value, ⟨parts, t, r, items, others, values,
    closes, rfl⟩, rfl⟩ := h
  have enclosed := IsValue.enclosed bracket
    (.item (i := (label, v)) (.first (spacing'.append spacing'')) rfl items)
    (List.forall_mem_cons.mpr ⟨labelled, others⟩) (List.forall_mem_cons.mpr ⟨value, values⟩)
  exact ⟨before, [], _, r, spacing, .none, enclosed, closes, by simp⟩

/-- By the recursion of `passOn`: what a step takes from the text goes in front of what is owed at
the next stage. -/
theorem exists_owed_of_passOn {stage : Stage} (h : passOn stage opened t = .ok rest) :
    ∃ s, Owed stage opened s ∧ t = s ++ rest := by
  fun_induction passOn stage opened t with
  | case1 => cases h; exact ⟨[], closes_nil.mpr rfl, rfl⟩
  | case2 => cases h
  | case3 t bracket outer r read ih =>
    obtain ⟨s, closes, rfl⟩ := ih h
    obtain ⟨space, spacing, rfl⟩ := exists_space_of_passSeparator read
    exact ⟨space ++ bracket.closing :: s, ⟨[], _, s, .closed spacing, List.forall_mem_nil _,
      List.forall_mem_nil _, closes, by simp⟩, by simp⟩
  | case4 t bracket outer r read ih =>
    obtain ⟨s, continues, rfl⟩ := ih h
    obtain ⟨space, spacing, rfl⟩ := exists_space_of_passSeparator read
    rw [owed_element] at continues
    exact ⟨space ++ ',' :: s, closes_of_continues spacing continues, by simp⟩
  | case5 => cases h
  | case6 t opened r read ih =>
    obtain ⟨s, ⟨after, label, v, r, spacing', labelled, value, closes, rfl⟩, rfl⟩ := ih h
    obtain ⟨space, literal, before, spacing, isLiteral, spacing'', rfl⟩ :=
      exists_key_of_passKey read
    cases labelled
    exact ⟨_, ⟨space, _, v, r, spacing, .key isLiteral spacing'' spacing', value, closes, rfl⟩,
      by simp⟩
  | case7 => cases h
  | case8 t opened r read ih =>
    obtain ⟨s, closes, rfl⟩ := ih h
    obtain ⟨space, spacing, ⟨-, v, isScalar, rfl⟩ | ⟨bracket, r, closed, rfl, passed, opens⟩⟩ :=
      exists_beginning_of_passBeginning read
    · exact ⟨_, ⟨space, [], v, s, spacing, .none, .scalar isScalar, closes, rfl⟩, by simp⟩
    · obtain ⟨space', spacing', rfl⟩ := exists_space_of_passClosing passed
      cases closed with
      | false => cases opens
      | true =>
        exact ⟨_, ⟨space, [], _, s, spacing, .none,
          .enclosed bracket (.closed spacing') (List.forall_mem_nil _) (List.forall_mem_nil _),
          closes, rfl⟩, by simp⟩
  | case9 t opened bracket r read ih =>
    obtain ⟨s, continues, rfl⟩ := ih h
    obtain ⟨space, spacing, ⟨⟨⟩, -⟩ | ⟨bracket', r, closed, rfl, passed, opens⟩⟩ :=
      exists_beginning_of_passBeginning read
    obtain ⟨space', spacing', rfl⟩ := exists_space_of_passClosing passed
    cases closed with
    | true => cases opens
    | false =>
      cases opens
      rw [owed_element] at continues
      exact ⟨_, continues_of_continues spacing spacing' continues, by simp⟩

/-- Values are passed over without a bound on their depth. -/
theorem passValue_append {space v : Text} (spacing : IsSpacing space) (h : IsValue v)
    (stops : Delimited rest) : passValue (space ++ (v ++ rest)) = .ok rest := by
  rw [passValue, h.passed spacing stops, passOn]

/-- Nothing but a value of the grammar is passed over. -/
theorem exists_value_of_passValue (h : passValue t = .ok rest) :
    ∃ space v, IsSpacing space ∧ IsValue v ∧ t = space ++ (v ++ rest) := by
  obtain ⟨_, ⟨space, _, v, r, spacing, ⟨⟩, value, closes, rfl⟩, rfl⟩ := exists_owed_of_passOn h
  rw [closes_nil.mp closes]
  exact ⟨space, v, spacing, value, by simp⟩

/-- A list or an object of any kind is a value if its items are labels and values. -/
theorem isValue_of_items {ι : Type} {item : ι → Text → Prop} {is : List ι} {s : Text}
    (bracket : Bracket) (items : Items item bracket.closing true is s)
    (isPart : ∀ i ∈ is, ∀ t, item i t →
      ∃ part, IsPart part t ∧ bracket.IsLabel part.1 ∧ IsValue part.2) :
    IsValue (bracket.opening :: s) := by
  have parts : ∃ parts, Items IsPart bracket.closing true parts s ∧
      ∀ part ∈ parts, bracket.IsLabel part.1 ∧ IsValue part.2 := by
    generalize true = first at items
    induction items with
    | closed spacing => exact ⟨[], .closed spacing, nofun⟩
    | item gapped same _ ih =>
      obtain ⟨head, tail⟩ := List.forall_mem_cons.mp isPart
      obtain ⟨part, whole, labelled⟩ := head _ same
      obtain ⟨parts, items, all⟩ := ih tail
      exact ⟨part :: parts, .item gapped whole items, List.forall_mem_cons.mpr ⟨labelled, all⟩⟩
  obtain ⟨parts, items, all⟩ := parts
  exact .enclosed bracket items (fun part member => (all part member).1)
    fun part member => (all part member).2

end ProtoPrep.Json
