import ProtoPrep.Json.Numeral
import ProtoPrep.Json.StringLiteral

/-!
# Passing over values

A value that nobody asks for is passed over. Its grammar is checked, and nothing
else: no number is out of range and no surrogate must stand in a pair. The brackets
that are open are kept on a stack, so values may nest to any depth.
-/

namespace ProtoPrep.Json

inductive Bracket where
  | list
  | object
deriving DecidableEq

/-- What comes next inside the open brackets. -/
inductive Stage where
  /-- A value. -/
  | value
  /-- A key, with its colon. -/
  | key
  /-- A comma or a closing bracket, or nothing if no bracket is open. -/
  | close

namespace Bracket

def closing : Bracket → Char
  | list => ']'
  | object => '\x7d'

def atEnd : Bracket → Fault
  | list => .endInList
  | object => .endInObject

def separatorExpected : Bracket → Fault
  | list => .commaOrBracketExpected
  | object => .commaOrBraceExpected

def element : Bracket → Stage
  | list => .value
  | object => .key

end Bracket

def passScalar : Text → Except Stop Text
  | [] => stopAt .endInValue []
  | c :: rest =>
    if c = '"' then passString rest
    else if c = 'n' then expectWord "ull".toList rest
    else if c = 't' then expectWord "rue".toList rest
    else if c = 'f' then expectWord "alse".toList rest
    else if c = '-' || c.isDigit then
      (Numeral.read .invalidNumber (c :: rest)).map Prod.snd
    else stopIn .valueExpected (c :: rest)

theorem passScalar_shorter {t rest : Text} (h : passScalar t = .ok rest) :
    rest.length < t.length := by
  cases t with
  | nil => cases h
  | cons c r =>
    simp only [passScalar] at h
    split at h
    · exact Nat.lt_succ_of_lt (passString_shorter h)
    · repeat' split at h
      · have := expectWord_length h
        simp only [List.length_cons]
        omega
      · have := expectWord_length h
        simp only [List.length_cons]
        omega
      · have := expectWord_length h
        simp only [List.length_cons]
        omega
      · cases hn : Numeral.read .invalidNumber (c :: r) with
        | error e => rw [hn] at h; cases h
        | ok read =>
          rw [hn] at h
          cases h
          exact Numeral.read_shorter hn
      · cases h

def passKey (t : Text) : Except Stop Text :=
  match skipSpace t with
  | [] => stopAt .endInObject []
  | c :: rest =>
    if c = '"' then
      match passString rest with
      | .error stop => .error stop
      | .ok after =>
        match skipSpace after with
        | [] => stopAt .endInObject []
        | d :: last => if d = ':' then .ok last else stopIn .colonExpected (d :: last)
    else stopIn .keyExpected (c :: rest)

theorem passKey_shorter {t rest : Text} (h : passKey t = .ok rest) : rest.length < t.length := by
  simp only [passKey] at h
  split at h
  · cases h
  · rename_i c r hs
    have first := skipSpace_length_le t
    rw [hs] at first
    split at h
    · split at h
      · cases h
      · rename_i after ha
        have second := passString_shorter ha
        split at h
        · cases h
        · rename_i d last hl
          have third := skipSpace_length_le after
          rw [hl] at third
          split at h
          · cases h
            simp only [List.length_cons] at first third
            omega
          · cases h
    · cases h

/-- Pass over the closing bracket if it comes next. The first part says whether it did. -/
def passClosing (bracket : Bracket) (t : Text) : Except Stop (Bool × Text) :=
  match skipSpace t with
  | [] => stopAt bracket.atEnd []
  | c :: rest => if c = bracket.closing then .ok (true, rest) else .ok (false, c :: rest)

/-- Pass over a comma or the closing bracket. The first part says whether it was the bracket. -/
def passSeparator (bracket : Bracket) (t : Text) : Except Stop (Bool × Text) :=
  match skipSpace t with
  | [] => stopAt bracket.atEnd []
  | c :: rest =>
    if c = bracket.closing then .ok (true, rest)
    else if c = ',' then .ok (false, rest)
    else stopIn bracket.separatorExpected (c :: rest)

/-- Pass over a value, or over its opening bracket if it holds anything. The first part is the
bracket that is then open. -/
def passBeginning (t : Text) : Except Stop (Option Bracket × Text) :=
  let inside (bracket : Bracket) (rest : Text) :=
    (passClosing bracket rest).map fun (closed, after) =>
      (if closed then none else some bracket, after)
  match skipSpace t with
  | [] => stopAt .endInValue []
  | c :: rest =>
    if c = '[' then inside .list rest
    else if c = '\x7b' then inside .object rest
    else (passScalar (c :: rest)).map fun after => (none, after)

theorem passClosing_length_le {bracket : Bracket} {t rest : Text} {closed : Bool}
    (h : passClosing bracket t = .ok (closed, rest)) : rest.length ≤ t.length := by
  simp only [passClosing] at h
  have bound := skipSpace_length_le t
  split at h
  · cases h
  · rename_i c r hs
    rw [hs] at bound
    split at h <;> cases h
    · exact Nat.le_of_succ_le bound
    · exact bound

theorem passSeparator_shorter {bracket : Bracket} {t rest : Text} {closed : Bool}
    (h : passSeparator bracket t = .ok (closed, rest)) : rest.length < t.length := by
  simp only [passSeparator] at h
  have bound := skipSpace_length_le t
  split at h
  · cases h
  · rename_i c r hs
    rw [hs] at bound
    repeat' split at h
    all_goals cases h
    all_goals exact bound

theorem passBeginning_shorter {t rest : Text} {opened : Option Bracket}
    (h : passBeginning t = .ok (opened, rest)) : rest.length < t.length := by
  simp only [passBeginning] at h
  have bound := skipSpace_length_le t
  split at h
  · cases h
  · rename_i c r hs
    rw [hs] at bound
    split at h
    · obtain ⟨⟨closed, after⟩, ha, hp⟩ := ok_of_map h
      cases hp
      have := passClosing_length_le ha
      exact Nat.lt_of_lt_of_le (Nat.lt_succ_of_le this) bound
    · split at h
      · obtain ⟨⟨closed, after⟩, ha, hp⟩ := ok_of_map h
        cases hp
        have := passClosing_length_le ha
        exact Nat.lt_of_lt_of_le (Nat.lt_succ_of_le this) bound
      · obtain ⟨after, ha, hp⟩ := ok_of_map h
        cases hp
        exact Nat.lt_of_lt_of_le (passScalar_shorter ha) bound

set_option linter.unusedVariables false in
def passOn (stage : Stage) (opened : List Bracket) (t : Text) : Except Stop Text :=
  match stage, opened with
  | .close, [] => .ok t
  | .close, bracket :: outer =>
    match h : passSeparator bracket t with
    | .error stop => .error stop
    | .ok (true, rest) => passOn .close outer rest
    | .ok (false, rest) => passOn bracket.element (bracket :: outer) rest
  | .key, opened =>
    match h : passKey t with
    | .error stop => .error stop
    | .ok rest => passOn .value opened rest
  | .value, opened =>
    match h : passBeginning t with
    | .error stop => .error stop
    | .ok (none, rest) => passOn .close opened rest
    | .ok (some bracket, rest) => passOn bracket.element (bracket :: opened) rest
termination_by t.length
decreasing_by
  · exact passSeparator_shorter h
  · exact passSeparator_shorter h
  · exact passKey_shorter h
  · exact passBeginning_shorter h
  · exact passBeginning_shorter h

def passValue (t : Text) : Except Stop Text :=
  passOn .value [] t

theorem passOn_length_le {stage : Stage} {opened : List Bracket} {t rest : Text}
    (h : passOn stage opened t = .ok rest) : rest.length ≤ t.length := by
  fun_induction passOn stage opened t with
  | case1 => cases h; exact Nat.le_refl _
  | case2 => cases h
  | case3 t bracket outer r hr ih =>
    exact Nat.le_trans (ih h) (Nat.le_of_lt (passSeparator_shorter hr))
  | case4 t bracket outer r hr ih =>
    exact Nat.le_trans (ih h) (Nat.le_of_lt (passSeparator_shorter hr))
  | case5 => cases h
  | case6 t opened r hr ih => exact Nat.le_trans (ih h) (Nat.le_of_lt (passKey_shorter hr))
  | case7 => cases h
  | case8 t opened r hr ih => exact Nat.le_trans (ih h) (Nat.le_of_lt (passBeginning_shorter hr))
  | case9 t opened b r hr ih => exact Nat.le_trans (ih h) (Nat.le_of_lt (passBeginning_shorter hr))

theorem passValue_shorter {t rest : Text} (h : passValue t = .ok rest) :
    rest.length < t.length := by
  unfold passValue passOn at h
  split at h
  · cases h
  · rename_i r hr
    exact Nat.lt_of_le_of_lt (passOn_length_le h) (passBeginning_shorter hr)
  · rename_i b r hr
    exact Nat.lt_of_le_of_lt (passOn_length_le h) (passBeginning_shorter hr)

end ProtoPrep.Json
