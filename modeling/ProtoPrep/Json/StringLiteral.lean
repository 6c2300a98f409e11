import ProtoPrep.Json.Read

/-!
# String literals

A string literal is read in two ways. `readString` decodes it, and a surrogate must
stand in a pair; `passString` only checks the form of its escapes.
-/

namespace ProtoPrep.Json

def hexValue? (c : Char) : Option Nat :=
  if '0' ≤ c ∧ c ≤ '9' then some (c.toNat - '0'.toNat)
  else if 'a' ≤ c ∧ c ≤ 'f' then some (c.toNat - 'a'.toNat + 10)
  else if 'A' ≤ c ∧ c ≤ 'F' then some (c.toNat - 'A'.toNat + 10)
  else none

def hexNumber? (a b c d : Char) : Option Nat := do
  return 4096 * (← hexValue? a) + 256 * (← hexValue? b) + 16 * (← hexValue? c) + (← hexValue? d)

/-- Stop at four bytes that are not four hexadecimal digits. -/
def stopInHex {α : Type} (t : Text) : Except Stop α :=
  if t.byteSize < 4 then stopAt .endInString [] else .error ⟨.invalidEscape, t, 4⟩

def readHex : Text → Except Stop (Nat × Text)
  | a :: b :: c :: d :: rest =>
    match hexNumber? a b c d with
    | some n => .ok (n, rest)
    | none => stopInHex (a :: b :: c :: d :: rest)
  | t => stopInHex t

def escapeLetter? : Char → Option Char
  | '"' => some '"'
  | '\\' => some '\\'
  | '/' => some '/'
  | 'b' => some '\x08'
  | 'f' => some '\x0c'
  | 'n' => some '\n'
  | 'r' => some '\r'
  | 't' => some '\t'
  | _ => none

def isHighSurrogate (n : Nat) : Bool :=
  0xD800 ≤ n && n < 0xDC00

def isLowSurrogate (n : Nat) : Bool :=
  0xDC00 ≤ n && n < 0xE000

def ofSurrogates (high low : Nat) : Char :=
  Char.ofNat (0x10000 + 0x400 * (high - 0xD800) + (low - 0xDC00))

/-- The second half of a surrogate pair, as an escape of its own. -/
def readLow : Text → Except Stop (Nat × Text)
  | [] => stopAt .endInString []
  | ['\\'] => stopAt .endInString []
  | '\\' :: 'u' :: rest => readHex rest
  | '\\' :: c :: rest => stopIn .hexEscapeEnds (c :: rest)
  | c :: rest => stopIn .hexEscapeEnds (c :: rest)

/-- A character written by its number, or by a surrogate pair. -/
def readUnicode (t : Text) : Except Stop (Char × Text) :=
  match readHex t with
  | .error stop => .error stop
  | .ok (n, after) =>
    if isLowSurrogate n then stopAt .loneSurrogate after
    else if isHighSurrogate n then
      match readLow after with
      | .error stop => .error stop
      | .ok (low, last) =>
        if isLowSurrogate low then .ok (ofSurrogates n low, last) else stopAt .loneSurrogate last
    else .ok (Char.ofNat n, after)

def readEscape : Text → Except Stop (Char × Text)
  | [] => stopAt .endInString []
  | c :: rest =>
    if c = 'u' then readUnicode rest
    else match escapeLetter? c with
      | some x => .ok (x, rest)
      | none => stopIn .invalidEscape (c :: rest)

def passEscape : Text → Except Stop Text
  | [] => stopAt .endInString []
  | c :: rest =>
    if c = 'u' then (readHex rest).map Prod.snd
    else match escapeLetter? c with
      | some _ => .ok rest
      | none => stopIn .invalidEscape (c :: rest)

theorem stopInHex_ne_ok {α : Type} {t : Text} {a : α} : stopInHex t ≠ .ok a := by
  simp only [stopInHex]
  split <;> exact fun h => nomatch h

theorem readHex_shorter {t rest : Text} {n : Nat} (h : readHex t = .ok (n, rest)) :
    rest.length < t.length := by
  simp only [readHex] at h
  split at h
  · split at h
    · cases h; simp; omega
    · exact (stopInHex_ne_ok h).elim
  · exact (stopInHex_ne_ok h).elim

theorem readLow_shorter {t rest : Text} {n : Nat} (h : readLow t = .ok (n, rest)) :
    rest.length < t.length := by
  simp only [readLow] at h
  split at h
  · cases h
  · cases h
  · have := readHex_shorter h
    simp only [List.length_cons]
    omega
  · cases h
  · cases h

theorem readUnicode_shorter {t rest : Text} {c : Char} (h : readUnicode t = .ok (c, rest)) :
    rest.length < t.length := by
  simp only [readUnicode] at h
  split at h
  · cases h
  · rename_i n after hn
    have first := readHex_shorter hn
    split at h
    · cases h
    · split at h
      · split at h
        · cases h
        · rename_i low last hl
          have second := readLow_shorter hl
          split at h
          · simp only [Except.ok.injEq, Prod.mk.injEq] at h
            rw [← h.2]
            omega
          · cases h
      · simp only [Except.ok.injEq, Prod.mk.injEq] at h
        rw [← h.2]
        exact first

theorem readEscape_shorter {t rest : Text} {c : Char} (h : readEscape t = .ok (c, rest)) :
    rest.length < t.length := by
  cases t with
  | nil => cases h
  | cons d r =>
    simp only [readEscape] at h
    split at h
    · exact Nat.lt_succ_of_lt (readUnicode_shorter h)
    · split at h
      · cases h; simp
      · cases h

theorem passEscape_shorter {t rest : Text} (h : passEscape t = .ok rest) :
    rest.length < t.length := by
  cases t with
  | nil => cases h
  | cons d r =>
    simp only [passEscape] at h
    split at h
    · cases hex : readHex r with
      | error e => rw [hex] at h; cases h
      | ok read =>
        rw [hex] at h
        cases h
        exact Nat.lt_succ_of_lt (readHex_shorter hex)
    · split at h
      · cases h; simp
      · cases h

/-- A control character, which may not stand for itself in a string literal. -/
def isControl (c : Char) : Bool :=
  c.toNat < 0x20

set_option linter.unusedVariables false in
def readString : Text → Except Stop (Text × Text)
  | [] => stopAt .endInString []
  | c :: rest =>
    if c = '"' then .ok ([], rest)
    else if c = '\\' then
      match h : readEscape rest with
      | .error stop => .error stop
      | .ok (x, after) => (readString after).map fun (t, rest) => (x :: t, rest)
    else if isControl c then stopIn .controlCharacter (c :: rest)
    else (readString rest).map fun (t, rest) => (c :: t, rest)
termination_by t => t.length
decreasing_by
  · have := readEscape_shorter h
    simp only [List.length_cons]
    omega
  · simp

set_option linter.unusedVariables false in
def passString : Text → Except Stop Text
  | [] => stopAt .endInString []
  | c :: rest =>
    if c = '"' then .ok rest
    else if c = '\\' then
      match h : passEscape rest with
      | .error stop => .error stop
      | .ok after => passString after
    else if isControl c then stopAt .controlCharacter (c :: rest)
    else passString rest
termination_by t => t.length
decreasing_by
  · have := passEscape_shorter h
    simp only [List.length_cons]
    omega
  · simp

theorem readString_shorter {t u rest : Text} (h : readString t = .ok (u, rest)) :
    rest.length < t.length := by
  fun_induction readString t generalizing u with
  | case1 => cases h
  | case2 => cases h; simp
  | case3 => cases h
  | case4 r x after hx _ ih =>
    cases hs : readString after with
    | error e => rw [hs] at h; cases h
    | ok read =>
      rw [hs] at h
      cases h
      have := ih hs
      have := readEscape_shorter hx
      simp only [List.length_cons]
      omega
  | case5 => cases h
  | case6 c r _ _ _ ih =>
    cases hs : readString r with
    | error e => rw [hs] at h; cases h
    | ok read =>
      rw [hs] at h
      cases h
      have := ih hs
      simp only [List.length_cons]
      omega

theorem passString_shorter {t rest : Text} (h : passString t = .ok rest) :
    rest.length < t.length := by
  fun_induction passString t with
  | case1 => cases h
  | case2 => cases h; simp
  | case3 => cases h
  | case4 r after hx _ ih =>
    have := ih h
    have := passEscape_shorter hx
    simp only [List.length_cons]
    omega
  | case5 => cases h
  | case6 c r _ _ _ ih =>
    have := ih h
    simp only [List.length_cons]
    omega

end ProtoPrep.Json
