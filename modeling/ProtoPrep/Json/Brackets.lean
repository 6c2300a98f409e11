import ProtoPrep.Json.Reader

/-!
# Lists and objects

Lists and objects are read with a reader for their elements or members. When a value
is complete but not acceptable as a whole, because a field is missing or repeated or
there are too few elements, the stop is behind the closing bracket if that comes
next, and before the next token if not.
-/

namespace ProtoPrep.Json

/-- What follows the element or member before: the closing bracket, or another one. -/
inductive Next where
  | closed (rest : Text)
  | item (t : Text)

def nextElement (first : Bool) (t : Text) : Except Stop Next :=
  match skipSpace t with
  | [] => stopAt .endInList []
  | c :: rest =>
    if c = ']' then .ok (.closed rest)
    else if first then .ok (.item (c :: rest))
    else if c = ',' then
      match skipSpace rest with
      | [] => stopAt .endInValue []
      | d :: after =>
        if d = ']' then stopIn .trailingComma (d :: after) else .ok (.item (d :: after))
    else stopIn .commaOrBracketExpected (c :: rest)

def nextKey (first : Bool) (t : Text) : Except Stop Next :=
  match skipSpace t with
  | [] => stopAt .endInObject []
  | c :: rest =>
    if c = '\x7d' then .ok (.closed rest)
    else if first then
      if c = '"' then .ok (.item rest) else stopIn .keyExpected (c :: rest)
    else if c = ',' then
      match skipSpace rest with
      | [] => stopAt .endInValue []
      | d :: after =>
        if d = '"' then .ok (.item after)
        else if d = '\x7d' then stopIn .trailingComma (d :: after)
        else stopIn .keyExpected (d :: after)
    else stopIn .commaOrBraceExpected (c :: rest)

def closeList (t : Text) : Except Stop Text :=
  match skipSpace t with
  | [] => stopAt .endInList []
  | c :: rest =>
    if c = ']' then .ok rest
    else if c = ',' then
      match skipSpace rest with
      | [] => stopAt .trailingCharacters []
      | d :: after => stopIn (if d = ']' then .trailingComma else .trailingCharacters) (d :: after)
    else stopIn .trailingCharacters (c :: rest)

/-- Where a reader stands after it tried to close an object. -/
def afterObject (t : Text) : Text :=
  match skipSpace t with
  | [] => []
  | c :: rest => if c = '\x7d' then rest else c :: rest

def readColon (t : Text) : Except Stop Text :=
  match skipSpace t with
  | [] => stopAt .endInObject []
  | c :: rest => if c = ':' then .ok rest else stopIn .colonExpected (c :: rest)

theorem nextElement_length_le {first : Bool} {t u : Text}
    (h : nextElement first t = .ok (.item u)) : u.length ≤ t.length := by
  simp only [nextElement] at h
  have bound := skipSpace_length_le t
  split at h
  · cases h
  · rename_i c r hs
    rw [hs] at bound
    simp only [List.length_cons] at bound
    split at h
    · cases h
    · split at h
      · cases h
        exact bound
      · split at h
        · split at h
          · cases h
          · rename_i d after ha
            have := skipSpace_length_le r
            rw [ha] at this
            split at h
            · cases h
            · cases h
              omega
        · cases h

theorem nextElement_closed_shorter {first : Bool} {t u : Text}
    (h : nextElement first t = .ok (.closed u)) : u.length < t.length := by
  simp only [nextElement] at h
  have bound := skipSpace_length_le t
  split at h
  · cases h
  · rename_i c r hs
    rw [hs] at bound
    split at h
    · cases h
      exact bound
    · repeat' split at h
      all_goals cases h

theorem nextKey_shorter {first : Bool} {t u : Text} (h : nextKey first t = .ok (.item u)) :
    u.length < t.length := by
  simp only [nextKey] at h
  have bound := skipSpace_length_le t
  split at h
  · cases h
  · rename_i c r hs
    rw [hs] at bound
    simp only [List.length_cons] at bound
    split at h
    · cases h
    · split at h
      · split at h
        · cases h
          exact bound
        · cases h
      · split at h
        · split at h
          · cases h
          · rename_i d after ha
            have := skipSpace_length_le r
            rw [ha, List.length_cons] at this
            split at h
            · cases h
              omega
            · split at h <;> cases h
        · cases h

theorem nextKey_closed_shorter {first : Bool} {t u : Text}
    (h : nextKey first t = .ok (.closed u)) : u.length < t.length := by
  simp only [nextKey] at h
  have bound := skipSpace_length_le t
  split at h
  · cases h
  · rename_i c r hs
    rw [hs] at bound
    split at h
    · cases h
      exact bound
    · repeat' split at h
      all_goals cases h

theorem closeList_shorter {t rest : Text} (h : closeList t = .ok rest) :
    rest.length < t.length := by
  simp only [closeList] at h
  have bound := skipSpace_length_le t
  split at h
  · cases h
  · rename_i c r hs
    rw [hs] at bound
    split at h
    · cases h
      exact bound
    · repeat' split at h
      all_goals cases h

theorem readColon_shorter {t rest : Text} (h : readColon t = .ok rest) :
    rest.length < t.length := by
  simp only [readColon] at h
  have bound := skipSpace_length_le t
  split at h
  · cases h
  · rename_i c r hs
    rw [hs] at bound
    split at h
    · cases h
      exact bound
    · cases h

variable {α σ : Type}

set_option linter.unusedVariables false in
def readElements (element : Reader α) (first : Bool) (t : Text) : Except Stop (List α × Text) :=
  match h : nextElement first t with
  | .error stop => .error stop
  | .ok (.closed rest) => .ok ([], rest)
  | .ok (.item u) =>
    match g : element.read u with
    | .error stop => .error stop
    | .ok (a, rest) => (readElements element false rest).map fun (as, rest) => (a :: as, rest)
termination_by t.length
decreasing_by exact Nat.lt_of_lt_of_le (element.shorter g) (nextElement_length_le h)

set_option linter.unusedVariables false in
/-- The members of an object, through its closing brace. `member` says what a key means for what
was read before: a reader of the member's value, or a fault. -/
def readMembers (member : σ → Text → Except Fault (Reader σ)) (first : Bool) (state : σ)
    (t : Text) : Except Stop (σ × Text) :=
  match h : nextKey first t with
  | .error stop => .error stop
  | .ok (.closed rest) => .ok (state, rest)
  | .ok (.item u) =>
    match hk : readString u with
    | .error stop => .error stop
    | .ok (key, afterKey) =>
      match member state key with
      | .error fault => stopAt fault (afterObject afterKey)
      | .ok value =>
        match hc : readColon afterKey with
        | .error stop => .error stop
        | .ok afterColon =>
          match hv : value.read afterColon with
          | .error stop => .error stop
          | .ok (next, rest) => readMembers member false next rest
termination_by t.length
decreasing_by
  have := nextKey_shorter h
  have := readString_shorter hk
  have := readColon_shorter hc
  have := value.shorter hv
  omega

theorem readElements_shorter {element : Reader α} {first : Bool} {t rest : Text} {as : List α}
    (h : readElements element first t = .ok (as, rest)) : rest.length < t.length := by
  fun_induction readElements element first t generalizing as with
  | case1 => cases h
  | case2 first t r hr => cases h; exact nextElement_closed_shorter hr
  | case3 => cases h
  | case4 first t u hu a r hr ih =>
    obtain ⟨⟨more, last⟩, hm, hp⟩ := ok_of_map h
    cases hp
    have := ih hm
    have := element.shorter hr
    have := nextElement_length_le hu
    omega

theorem readMembers_shorter {member : σ → Text → Except Fault (Reader σ)} {first : Bool}
    {state next : σ} {t rest : Text} (h : readMembers member first state t = .ok (next, rest)) :
    rest.length < t.length := by
  fun_induction readMembers member first state t with
  | case1 => cases h
  | case2 first state t r hr => cases h; exact nextKey_closed_shorter hr
  | case3 => cases h
  | case4 => cases h
  | case5 => cases h
  | case6 => cases h
  | case7 first state t u hu key afterKey hk value hm afterColon hc next r hv ih =>
    have := ih h
    have := nextKey_shorter hu
    have := readString_shorter hk
    have := readColon_shorter hc
    have := value.shorter hv
    omega

def Reader.list (element : Reader α) : Reader (List α) :=
  .ofToken (fun c rest =>
      if c = '[' then readElements element true rest
      else stopWrongType "a sequence" (c :: rest)) <| by
    intro c t a rest h
    split at h
    · exact Nat.le_of_lt (readElements_shorter h)
    · exact (stopWrongType_ne_ok h).elim

end ProtoPrep.Json
