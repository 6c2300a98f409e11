import Mathlib.Data.List.Basic
import Mathlib.Data.List.Induction
import Mathlib.Data.List.TakeWhile
import ProtoPrep.Json.Reader
import ProtoPrep.Proofs.Json.Layout

/-!
# The written forms of numbers

A numeral is read from exactly the texts of its written forms, as long as the text
after it does not go on with it. A code is written in one way only: by its decimal
digits, with neither a sign nor a fraction nor an exponent, and no zero in front.
-/

namespace ProtoPrep.Json

def IsDigits (s : Text) : Prop :=
  s ≠ [] ∧ ∀ c ∈ s, c.isDigit = true

/-- The digits of an integer, without needless zeros. -/
def IsWhole (s : Text) : Prop :=
  IsDigits s ∧ (s = ['0'] ∨ s.head? ≠ some '0')

inductive FractionSpells : Option Text → Text → Prop where
  | none : FractionSpells none []
  | some {digits : Text} : IsDigits digits → FractionSpells (some digits) ('.' :: digits)

inductive ExponentSpells : Option (Bool × Text) → Text → Prop where
  | none : ExponentSpells none []
  | some {letter : Char} {sign : Text} {minus : Bool} {digits : Text} : letter ∈ ['e', 'E'] →
      (sign, minus) ∈ [([], false), (['+'], false), (['-'], true)] → IsDigits digits →
      ExponentSpells (some (minus, digits)) (letter :: (sign ++ digits))

/-- The written forms of a numeral. -/
inductive Numeral.Spells : Numeral → Text → Prop where
  | mk {negative : Bool} {whole f e : Text} {fraction : Option Text}
      {exponent : Option (Bool × Text)} : IsWhole whole → FractionSpells fraction f →
      ExponentSpells exponent e → Numeral.Spells ⟨negative, whole, fraction, exponent⟩
        ((if negative then ['-'] else []) ++ (whole ++ (f ++ e)))

theorem takeWhile_digits {digits rest : Text} (all : ∀ c ∈ digits, c.isDigit = true)
    (stops : beginsWithDigit rest = false) : (digits ++ rest).takeWhile Char.isDigit = digits := by
  rw [List.takeWhile_append_of_pos all]
  cases rest with
  | nil => simp
  | cons c r =>
    rw [List.takeWhile_cons_of_neg (by simpa [beginsWithDigit] using stops), List.append_nil]

theorem dropWhile_digits {digits rest : Text} (all : ∀ c ∈ digits, c.isDigit = true)
    (stops : beginsWithDigit rest = false) : (digits ++ rest).dropWhile Char.isDigit = rest := by
  rw [List.dropWhile_append_of_pos all]
  cases rest with
  | nil => rfl
  | cons c r => exact List.dropWhile_cons_of_neg (by simpa [beginsWithDigit] using stops)

theorem IsDigits.beginsWithDigit_append {digits : Text} (h : IsDigits digits) (rest : Text) :
    beginsWithDigit (digits ++ rest) = true := by
  obtain ⟨c, r, rfl⟩ := List.exists_cons_of_ne_nil h.1
  exact h.2 c List.mem_cons_self

theorem isDigits_takeWhile {t : Text} (h : beginsWithDigit t = true) :
    IsDigits (t.takeWhile Char.isDigit) := by
  refine ⟨?_, fun c member => List.mem_takeWhile_imp member⟩
  cases t with
  | nil => cases h
  | cons c r =>
    rw [List.takeWhile_cons_of_pos (by simpa [beginsWithDigit] using h)]
    exact List.cons_ne_nil _ _

theorem Delimited.beginsWithDigit {t : Text} (h : Delimited t) : beginsWithDigit t = false := by
  cases t with
  | nil => rfl
  | cons c r => exact (h c rfl).1

theorem ExponentSpells.head {exponent : Option (Bool × Text)} {e rest : Text}
    (h : ExponentSpells exponent e) (stops : Delimited rest) :
    beginsWithDigit (e ++ rest) = false ∧ (e ++ rest).head? ≠ Option.some '.' := by
  cases h with
  | none => exact ⟨stops.beginsWithDigit, fun point => (stops _ point).2.1 rfl⟩
  | some letter =>
    have letters : ∀ c ∈ ['e', 'E'], c.isDigit = false ∧ c ≠ '.' := by simp
    obtain ⟨noDigit, noPoint⟩ := letters _ letter
    exact ⟨noDigit, fun point => noPoint (Option.some.inj point)⟩

theorem FractionSpells.head {fraction : Option Text} {f rest : Text}
    (h : FractionSpells fraction f) (stops : beginsWithDigit rest = false) :
    beginsWithDigit (f ++ rest) = false := by
  cases h with
  | none => exact stops
  | some => rfl

namespace Numeral

variable {atEnd : Fault}

theorem readWhole_append {whole rest : Text} (h : IsWhole whole)
    (stops : beginsWithDigit rest = false) :
    readWhole atEnd (whole ++ rest) = .ok (whole, rest) := by
  obtain ⟨digits, rfl | noZero⟩ := h
  · rw [List.singleton_append, readWhole, if_pos rfl, if_neg (by rw [stops]; decide)]
  · obtain ⟨c, r, rfl⟩ := List.exists_cons_of_ne_nil digits.1
    have first : c.isDigit = true := digits.2 c List.mem_cons_self
    have others : ∀ d ∈ r, d.isDigit = true := fun d member =>
      digits.2 d (List.mem_cons_of_mem c member)
    rw [List.cons_append, readWhole, if_neg (fun zero => noZero (by rw [zero]; rfl)),
      if_pos first, ← List.cons_append, takeWhile_digits digits.2 stops,
      dropWhile_digits others stops]

theorem exists_whole_of_readWhole {t whole rest : Text}
    (h : readWhole atEnd t = .ok (whole, rest)) : IsWhole whole ∧ t = whole ++ rest := by
  cases t with
  | nil => cases h
  | cons c r =>
    rw [readWhole] at h
    split at h
    · rename_i zero
      split at h
      · cases h
      · cases h
        exact ⟨⟨⟨List.cons_ne_nil _ _, by simp⟩, .inl rfl⟩, by rw [zero]; rfl⟩
    · rename_i noZero
      split at h
      · rename_i digit
        cases h
        refine ⟨⟨isDigits_takeWhile digit, .inr ?_⟩, ?_⟩
        · rw [List.takeWhile_cons_of_pos digit]
          exact fun zero => noZero (Option.some.inj zero)
        · rw [List.takeWhile_cons_of_pos digit, List.cons_append,
            List.takeWhile_append_dropWhile]
      · cases h

theorem readFraction_append {fraction : Option Text} {f rest : Text}
    (h : FractionSpells fraction f) (stops : beginsWithDigit rest = false)
    (noPoint : rest.head? ≠ some '.') :
    readFraction atEnd (f ++ rest) = .ok (fraction, rest) := by
  cases h with
  | none =>
    rw [List.nil_append, readFraction.eq_def]
    split
    · exact absurd rfl noPoint
    · rfl
  | some digits =>
    rw [List.cons_append, readFraction, if_pos (digits.beginsWithDigit_append rest),
      takeWhile_digits digits.2 stops, dropWhile_digits digits.2 stops]

theorem exists_fraction_of_readFraction {t rest : Text} {fraction : Option Text}
    (h : readFraction atEnd t = .ok (fraction, rest)) :
    ∃ f, FractionSpells fraction f ∧ t = f ++ rest := by
  rw [readFraction.eq_def] at h
  split at h
  · rename_i r
    split at h
    · rename_i digit
      cases h
      exact ⟨_, .some (isDigits_takeWhile digit), by
        rw [List.cons_append, List.takeWhile_append_dropWhile]⟩
    · cases h
  · cases h
    exact ⟨[], .none, rfl⟩

theorem readExponent_append {exponent : Option (Bool × Text)} {e rest : Text}
    (h : ExponentSpells exponent e) (stops : Delimited rest) :
    readExponent atEnd (e ++ rest) = .ok (exponent, rest) := by
  cases h with
  | none =>
    cases rest with
    | nil => rfl
    | cons c r =>
      have noLetter := (stops c rfl).2.2
      rw [List.nil_append, readExponent, if_neg (by simp [noLetter.1, noLetter.2])]
  | @some letter sign minus digits isLetter signed isDigits =>
    have read : readSign (sign ++ (digits ++ rest)) = (minus, digits ++ rest) := by
      simp only [List.mem_cons, Prod.mk.injEq, List.not_mem_nil, or_false] at signed
      obtain ⟨rfl, rfl⟩ | ⟨rfl, rfl⟩ | ⟨rfl, rfl⟩ := signed
      · obtain ⟨c, r, rfl⟩ := List.exists_cons_of_ne_nil isDigits.1
        have digit := isDigits.2 c List.mem_cons_self
        rw [List.nil_append, List.cons_append, readSign.eq_def]
        split
        · rename_i same
          cases same
          exact absurd digit (by decide)
        · rename_i same
          cases same
          exact absurd digit (by decide)
        · rfl
      · rfl
      · rfl
    rw [List.cons_append, readExponent, if_pos (by simpa using isLetter), List.append_assoc, read]
    simp only [isDigits.beginsWithDigit_append, if_true,
      takeWhile_digits isDigits.2 stops.beginsWithDigit,
      dropWhile_digits isDigits.2 stops.beginsWithDigit]

theorem exists_sign (t : Text) : ∃ sign, (sign, (readSign t).1) ∈
    [([], false), (['+'], false), (['-'], true)] ∧ t = sign ++ (readSign t).2 := by
  rw [readSign.eq_def]
  split
  · exact ⟨['+'], by simp, rfl⟩
  · exact ⟨['-'], by simp, rfl⟩
  · exact ⟨[], by simp, rfl⟩

theorem exists_exponent_of_readExponent {t rest : Text} {exponent : Option (Bool × Text)}
    (h : readExponent atEnd t = .ok (exponent, rest)) :
    ∃ e, ExponentSpells exponent e ∧ t = e ++ rest := by
  cases t with
  | nil => cases h; exact ⟨[], .none, rfl⟩
  | cons c r =>
    simp only [readExponent] at h
    split at h
    · rename_i letter
      obtain ⟨sign, signed, whole⟩ := exists_sign r
      split at h
      · rename_i digit
        cases h
        refine ⟨_, .some (by simpa using letter) signed (isDigits_takeWhile digit), ?_⟩
        rw [List.cons_append, List.append_assoc, List.takeWhile_append_dropWhile, ← whole]
      · cases h
    · cases h
      exact ⟨[], .none, rfl⟩

theorem readMinus_append {negative : Bool} {rest : Text} (h : rest.head? ≠ some '-') :
    readMinus ((if negative then ['-'] else []) ++ rest) = (negative, rest) := by
  cases negative with
  | true => rfl
  | false =>
    cases rest with
    | nil => rfl
    | cons c r => exact if_neg fun minus => h (congrArg some minus)

theorem readMinus_eq {t rest : Text} {negative : Bool} (h : readMinus t = (negative, rest)) :
    t = (if negative then ['-'] else []) ++ rest := by
  cases t with
  | nil => cases h; rfl
  | cons c r =>
    rw [readMinus] at h
    split at h <;> cases h
    · rename_i minus
      rw [minus]
      rfl
    · rfl

theorem head_whole {whole : Text} (h : IsWhole whole) (rest : Text) :
    (whole ++ rest).head? ≠ some '-' := by
  obtain ⟨c, r, rfl⟩ := List.exists_cons_of_ne_nil h.1.1
  intro minus
  have digit := h.1.2 c List.mem_cons_self
  rw [Option.some.inj minus] at digit
  exact absurd digit (by decide)

theorem read_append {numeral : Numeral} {s rest : Text} (h : numeral.Spells s)
    (stops : Delimited rest) : read atEnd (s ++ rest) = .ok (numeral, rest) := by
  obtain ⟨whole, fraction, exponent⟩ := h
  have afterFraction := exponent.head stops
  have afterWhole := fraction.head afterFraction.1
  simp only [read, List.append_assoc, readMinus_append (head_whole whole _),
    readWhole_append whole afterWhole, readFraction_append fraction afterFraction.1 afterFraction.2,
    readExponent_append exponent stops, bind, Except.bind, pure, Except.pure]

theorem exists_spelling_of_read {t rest : Text} {numeral : Numeral}
    (h : read atEnd t = .ok (numeral, rest)) : ∃ s, numeral.Spells s ∧ t = s ++ rest := by
  obtain ⟨⟨whole, afterWhole⟩, hw, h⟩ := ok_of_bind h
  obtain ⟨⟨fraction, afterFraction⟩, hf, h⟩ := ok_of_bind h
  obtain ⟨⟨exponent, last⟩, he, h⟩ := ok_of_bind h
  cases h
  obtain ⟨isWhole, first⟩ := exists_whole_of_readWhole hw
  obtain ⟨f, isFraction, rfl⟩ := exists_fraction_of_readFraction hf
  obtain ⟨e, isExponent, rfl⟩ := exists_exponent_of_readExponent he
  refine ⟨_, .mk isWhole isFraction isExponent, ?_⟩
  rw [List.append_assoc, List.append_assoc, List.append_assoc, ← first]
  exact readMinus_eq rfl

end Numeral

theorem le_ofDigitChars (digits : Text) (n : Nat) : n ≤ Nat.ofDigitChars 10 digits n := by
  induction digits generalizing n with
  | nil => exact Nat.le_refl n
  | cons d ds ih =>
    rw [Nat.ofDigitChars_cons]
    exact Nat.le_trans (by omega) (ih _)

/-- Digits are all taken up if the number that they make is below the bound. -/
theorem accumulate_eq {bound n : Nat} {digits : Text}
    (small : Nat.ofDigitChars 10 digits n < bound) :
    accumulate bound n digits = (Nat.ofDigitChars 10 digits n, 0) := by
  induction digits generalizing n with
  | nil => rfl
  | cons d ds ih =>
    rw [Nat.ofDigitChars_cons] at small ⊢
    rw [accumulate, ← ih small]
    exact if_pos (Nat.lt_of_le_of_lt (le_ofDigitChars ds _) small)

/-- If no digit is left over, the bound was never met. -/
theorem eq_of_accumulate {bound n m : Nat} {digits : Text}
    (h : accumulate bound n digits = (m, 0)) : m = Nat.ofDigitChars 10 digits n := by
  induction digits generalizing n with
  | nil => exact (Prod.mk.inj h).1.symm
  | cons d ds ih =>
    rw [accumulate] at h
    split at h
    · exact ih h
    · cases h

namespace Numeral

/-- A natural number is the value of its digits, without sign, fraction or exponent. -/
theorem value_eq_natural {numeral : Numeral} {n : Nat} (h : numeral.value = .ok (.natural n)) :
    numeral = ⟨false, numeral.whole, none, none⟩ ∧ n = Nat.ofDigitChars 10 numeral.whole 0 := by
  obtain ⟨negative, whole, fraction, exponent⟩ := numeral
  cases taken : accumulate UInt64.size 0 whole with
  | mk significand dropped =>
    simp only [value, taken] at h
    split at h
    · split at h
      · rename_i positive
        cases h
        exact ⟨by simpa using positive, eq_of_accumulate taken⟩
      · split at h <;> cases h
    · repeat' split at h
      all_goals cases h

end Numeral

theorem digitValue_lt {d : Char} (digit : d.isDigit = true) :
    digitValue d < 10 ∧ d.toNat = 48 + digitValue d := by
  simp only [Char.isDigit, Bool.and_eq_true, decide_eq_true_eq] at digit
  have low : 48 ≤ d.toNat := digit.1
  have high : d.toNat ≤ 57 := digit.2
  have zero : '0'.toNat = 48 := rfl
  simp only [digitValue, zero]
  omega

theorem digitChar_digitValue {d : Char} (digit : d.isDigit = true) :
    Nat.digitChar (digitValue d) = d := by
  obtain ⟨small, value⟩ := digitValue_lt digit
  exact Char.toNat_inj.mp (by rw [Nat.toNat_digitChar_of_lt_ten small, value])

theorem digitValue_pos {d : Char} (digit : d.isDigit = true) (noZero : d ≠ '0') :
    0 < digitValue d := by
  refine Nat.pos_of_ne_zero fun zero => noZero ?_
  rw [← digitChar_digitValue digit, zero]
  rfl

/-- Digits that do not begin with a zero are the digits of the number that they make. -/
theorem toDigits_ofDigitChars {digits : Text} (isDigits : IsDigits digits)
    (noZero : digits.head? ≠ some '0') :
    0 < Nat.ofDigitChars 10 digits 0 ∧ Nat.toDigits 10 (Nat.ofDigitChars 10 digits 0) = digits := by
  -- From the back, since the digits of a number split off its last one.
  induction digits using List.reverseRecOn with
  | nil => exact absurd rfl isDigits.1
  | append_singleton ds d ih =>
    have digit : d.isDigit = true := isDigits.2 d (by simp)
    have small := (digitValue_lt digit).1
    have value : Nat.ofDigitChars 10 (ds ++ [d]) 0 =
        10 * Nat.ofDigitChars 10 ds 0 + digitValue d := by
      rw [Nat.ofDigitChars_append, Nat.ofDigitChars_cons, Nat.ofDigitChars_nil]
      rfl
    rw [value]
    obtain rfl | some := eq_or_ne ds []
    · have positive := digitValue_pos digit fun zero => noZero (by rw [zero]; rfl)
      rw [Nat.ofDigitChars_nil, Nat.mul_zero, Nat.zero_add, Nat.toDigits_of_lt_base small,
        digitChar_digitValue digit]
      exact ⟨positive, rfl⟩
    · rw [List.head?_append_of_ne_nil ds some] at noZero
      obtain ⟨positive, same⟩ :=
        ih ⟨some, fun c member => isDigits.2 c (List.mem_append_left [d] member)⟩ noZero
      have quotient : (10 * Nat.ofDigitChars 10 ds 0 + digitValue d) / 10 =
          Nat.ofDigitChars 10 ds 0 := by omega
      have remainder : (10 * Nat.ofDigitChars 10 ds 0 + digitValue d) % 10 = digitValue d := by
        omega
      rw [Nat.toDigits_of_base_le (by decide) (by omega), quotient, remainder, same,
        digitChar_digitValue digit]
      exact ⟨by omega, rfl⟩

theorem IsWhole.eq_toDigits {whole : Text} (h : IsWhole whole) :
    whole = Nat.toDigits 10 (Nat.ofDigitChars 10 whole 0) := by
  obtain ⟨digits, rfl | noZero⟩ := h
  · rfl
  · exact (toDigits_ofDigitChars digits noZero).2.symm

theorem head?_toDigits {n : Nat} (positive : 0 < n) :
    (Nat.toDigits 10 n).head? ≠ some '0' := by
  induction n using Nat.strongRecOn with
  | ind n ih =>
    obtain small | large := Nat.lt_or_ge n 10
    · have digits : ∀ m < 10, 0 < m → Nat.digitChar m ≠ '0' := by decide
      rw [Nat.toDigits_of_lt_base small]
      exact fun zero => digits n small positive (Option.some.inj zero)
    · rw [Nat.toDigits_of_base_le (by decide) large,
        List.head?_append_of_ne_nil _ Nat.toDigits_ne_nil]
      exact ih (n / 10) (by omega) (by omega)

theorem isWhole_toDigits (n : Nat) : IsWhole (Nat.toDigits 10 n) := by
  refine ⟨⟨Nat.toDigits_ne_nil, fun c member =>
    Nat.isDigit_of_mem_toDigits (by decide) (by decide) member⟩, ?_⟩
  obtain rfl | positive := Nat.eq_zero_or_pos n
  · exact .inl rfl
  · exact .inr (head?_toDigits positive)

theorem spells_toDigits (n : Nat) :
    Numeral.Spells ⟨false, Nat.toDigits 10 n, none, none⟩ (Nat.toDigits 10 n) := by
  have written : Numeral.Spells ⟨false, Nat.toDigits 10 n, none, none⟩
      ([] ++ (Nat.toDigits 10 n ++ ([] ++ []))) :=
    .mk (isWhole_toDigits n) .none .none
  rwa [List.append_nil, List.append_nil, List.nil_append] at written

/-- The decimal digits of a number below the bound of words are read as that number. -/
theorem readNumber_toDigits {n : Nat} {rest : Text} (small : n < UInt64.size)
    (stops : Delimited rest) :
    readNumber (Nat.toDigits 10 n ++ rest) = .ok (.natural n, rest) := by
  have value : Nat.ofDigitChars 10 (Nat.toDigits 10 n) 0 = n :=
    Nat.ofDigitChars_toDigits (by decide) (by decide)
  rw [readNumber, Numeral.read_append (spells_toDigits n) stops]
  simp only [Numeral.value, accumulate_eq (value.symm ▸ small), value, Bool.not_false, if_true]

/-- A text that is read as a natural number begins with its decimal digits. -/
theorem eq_toDigits_of_readNumber {t rest : Text} {n : Nat}
    (h : readNumber t = .ok (.natural n, rest)) : t = Nat.toDigits 10 n ++ rest := by
  rw [readNumber] at h
  split at h
  · cases h
  · rename_i numeral after read
    split at h
    · rename_i m value
      cases h
      obtain ⟨s, written, rfl⟩ := Numeral.exists_spelling_of_read read
      obtain ⟨plain, rfl⟩ := Numeral.value_eq_natural value
      rw [plain] at written
      obtain ⟨whole, fraction, exponent⟩ := written
      cases fraction
      cases exponent
      rw [← whole.eq_toDigits]
      simp
    · cases h

end ProtoPrep.Json
