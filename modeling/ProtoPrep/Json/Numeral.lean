import ProtoPrep.Json.Read

/-!
# Reading numerals

A numeral is an optional minus, an integer part without needless zeros, an optional
fraction and an optional exponent. What a text lacks that ends too early depends on
the reader, so the fault is a parameter.
-/

namespace ProtoPrep.Json

def beginsWithDigit : Text → Bool
  | [] => false
  | c :: _ => c.isDigit

namespace Numeral

def readWhole (atEnd : Fault) : Text → Except Stop (Text × Text)
  | [] => stopAt atEnd []
  | c :: rest =>
    if c = '0' then
      if beginsWithDigit rest then stopIn .invalidNumber rest else .ok (['0'], rest)
    else if c.isDigit then .ok ((c :: rest).takeWhile Char.isDigit, rest.dropWhile Char.isDigit)
    else stopIn .invalidNumber (c :: rest)

def readFraction (atEnd : Fault) : Text → Except Stop (Option Text × Text)
  | '.' :: rest =>
    if beginsWithDigit rest then
      .ok (some (rest.takeWhile Char.isDigit), rest.dropWhile Char.isDigit)
    else stopIn (if rest = [] then atEnd else .invalidNumber) rest
  | t => .ok (none, t)

/-- A sign, which is true if it is a minus, and what follows it. -/
def readSign : Text → Bool × Text
  | '+' :: rest => (false, rest)
  | '-' :: rest => (true, rest)
  | t => (false, t)

def readExponent (atEnd : Fault) : Text → Except Stop (Option (Bool × Text) × Text)
  | [] => .ok (none, [])
  | c :: rest =>
    if c = 'e' || c = 'E' then
      let (minus, digits) := readSign rest
      if beginsWithDigit digits then
        .ok (some (minus, digits.takeWhile Char.isDigit), digits.dropWhile Char.isDigit)
      else stopIn (if digits = [] then atEnd else .invalidNumber) digits
    else .ok (none, c :: rest)

def readMinus : Text → Bool × Text
  | [] => (false, [])
  | c :: rest => if c = '-' then (true, rest) else (false, c :: rest)

/-- A numeral. `atEnd` is the fault of a text that ends where a digit is wanted. -/
def read (atEnd : Fault) (t : Text) : Except Stop (Numeral × Text) := do
  let (negative, t) := readMinus t
  let (whole, t) ← readWhole atEnd t
  let (fraction, t) ← readFraction atEnd t
  let (exponent, t) ← readExponent atEnd t
  return (⟨negative, whole, fraction, exponent⟩, t)

theorem readMinus_length_le (t : Text) : (readMinus t).2.length ≤ t.length := by
  cases t with
  | nil => exact Nat.le_refl _
  | cons c rest => simp only [readMinus]; split <;> simp

theorem readWhole_shorter {atEnd : Fault} {t digits rest : Text}
    (h : readWhole atEnd t = .ok (digits, rest)) : rest.length < t.length := by
  cases t with
  | nil => cases h
  | cons c r =>
    simp only [readWhole] at h
    split at h
    · split at h
      · cases h
      · cases h; simp
    · split at h
      · cases h
        exact Nat.lt_succ_of_le (List.dropWhile_suffix Char.isDigit).length_le
      · cases h

theorem readFraction_length_le {atEnd : Fault} {t rest : Text} {digits : Option Text}
    (h : readFraction atEnd t = .ok (digits, rest)) : rest.length ≤ t.length := by
  simp only [readFraction] at h
  split at h
  · split at h
    · cases h
      exact Nat.le_succ_of_le (List.dropWhile_suffix Char.isDigit).length_le
    · cases h
  · cases h
    exact Nat.le_refl _

theorem readSign_length_le (t : Text) : (readSign t).2.length ≤ t.length := by
  simp only [readSign]
  split <;> simp

theorem readExponent_length_le {atEnd : Fault} {t rest : Text} {places : Option (Bool × Text)}
    (h : readExponent atEnd t = .ok (places, rest)) : rest.length ≤ t.length := by
  cases t with
  | nil => cases h; exact Nat.le_refl _
  | cons c r =>
    simp only [readExponent] at h
    split at h
    · split at h
      · cases h
        exact Nat.le_succ_of_le (Nat.le_trans (List.dropWhile_suffix Char.isDigit).length_le
          (readSign_length_le r))
      · cases h
    · cases h
      exact Nat.le_refl _

theorem read_shorter {atEnd : Fault} {t rest : Text} {numeral : Numeral}
    (h : read atEnd t = .ok (numeral, rest)) : rest.length < t.length := by
  obtain ⟨⟨whole, afterWhole⟩, hw, h⟩ := ok_of_bind h
  obtain ⟨⟨fraction, afterFraction⟩, hf, h⟩ := ok_of_bind h
  obtain ⟨⟨exponent, last⟩, he, h⟩ := ok_of_bind h
  cases h
  have := readMinus_length_le t
  have : afterWhole.length < (readMinus t).2.length := readWhole_shorter hw
  have := readFraction_length_le hf
  have := readExponent_length_le he
  omega

end Numeral

end ProtoPrep.Json
