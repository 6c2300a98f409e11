import Mathlib.Data.List.Basic
import ProtoPrep.Json.Pass
import ProtoPrep.Proofs.Json.Layout

/-!
# The written forms of a text

A character of a string literal is written as itself, by a letter after a backslash,
or by its number in hexadecimal digits of either case; a number above the first
plane is written as a surrogate pair. The readers accept exactly these forms, and a
string that is passed over may have any number in its escapes.
-/

namespace ProtoPrep.Json

def letters : List (Char × Char) :=
  [('"', '"'), ('\\', '\\'), ('/', '/'), ('b', '\x08'), ('f', '\x0c'), ('n', '\n'), ('r', '\r'),
   ('t', '\t')]

def hexDigits (n : Nat) : Text :=
  [n / 4096, n / 256 % 16, n / 16 % 16, n % 16].map Nat.digitChar

/-- Hexadecimal digits, in either case, that make a number below 65536. -/
def IsHex (n : Nat) (s : Text) : Prop :=
  n < 65536 ∧ s.map Char.toLower = hexDigits n

/-- The escapes of a character, without the backslash. -/
inductive Escape : Char → Text → Prop where
  | letter {l c : Char} : (l, c) ∈ letters → Escape c [l]
  | number {c : Char} {h : Text} : IsHex c.toNat h → Escape c ('u' :: h)
  | pair {c : Char} {high low : Text} : 0x10000 ≤ c.toNat →
      IsHex (0xD800 + (c.toNat - 0x10000) / 0x400) high →
      IsHex (0xDC00 + (c.toNat - 0x10000) % 0x400) low →
      Escape c ('u' :: (high ++ '\\' :: 'u' :: low))

/-- The escapes of the grammar, without the backslash. A number need not be that of a character. -/
inductive IsEscape : Text → Prop where
  | letter {l c : Char} : (l, c) ∈ letters → IsEscape [l]
  | number {n : Nat} {h : Text} : IsHex n h → IsEscape ('u' :: h)

/-- The inside of a string literal that spells a text, with the given escapes. -/
inductive Written (escape : Char → Text → Prop) : Text → Text → Prop where
  | nil : Written escape [] []
  | plain {c : Char} {t s : Text} : c ≠ '"' → c ≠ '\\' → 0x20 ≤ c.toNat → Written escape t s →
      Written escape (c :: t) (c :: s)
  | escaped {c : Char} {e t s : Text} : escape c e → Written escape t s →
      Written escape (c :: t) ('\\' :: (e ++ s))

/-- A string literal that spells a text. -/
def Quoted (t s : Text) : Prop :=
  ∃ body, Written Escape t body ∧ s = '"' :: (body ++ ['"'])

/-- A string literal of the grammar. -/
def IsLiteral (s : Text) : Prop :=
  ∃ t body, Written (fun _ => IsEscape) t body ∧ s = '"' :: (body ++ ['"'])

theorem escapeLetter?_eq_some_iff {l c : Char} :
    escapeLetter? l = some c ↔ (l, c) ∈ letters := by
  constructor
  · intro h
    rw [escapeLetter?.eq_def] at h
    split at h
    all_goals cases h
    all_goals simp [letters]
  · have all : ∀ p ∈ letters, escapeLetter? p.1 = some p.2 := by decide
    exact all (l, c)

theorem ne_of_mem_letters {l c : Char} (h : (l, c) ∈ letters) : l ≠ 'u' := by
  have all : ∀ p ∈ letters, p.1 ≠ 'u' := by decide
  exact all (l, c) h

/-- The two sides are compared on each of the ASCII characters; no other one satisfies either. -/
theorem hexValue?_eq_some_iff {c : Char} {v : Nat} :
    hexValue? c = some v ↔ v < 16 ∧ c.toLower = Nat.digitChar v := by
  by_cases ascii : c.toNat < 128
  · have values : ∀ n < 128, ∀ w ∈ hexValue? (Char.ofNat n), w < 16 := by decide
    have digits : ∀ n < 128, ∀ w < 16, hexValue? (Char.ofNat n) = some w ↔
        (Char.ofNat n).toLower = Nat.digitChar w := by decide
    have value := values _ ascii v
    have digit := digits _ ascii v
    rw [Char.ofNat_toNat] at value digit
    constructor
    · intro h
      exact ⟨value h, (digit (value h)).mp h⟩
    · rintro ⟨bound, h⟩
      exact (digit bound).mpr h
  · have none : hexValue? c = none := by
      have above : ∀ d : Char, d.toNat < 128 → ¬ c ≤ d := fun d low le =>
        ascii (Nat.lt_of_le_of_lt le low)
      rw [hexValue?, if_neg fun h => above _ (by decide) h.2,
        if_neg fun h => above _ (by decide) h.2, if_neg fun h => above _ (by decide) h.2]
    have lower : c.toLower = c := by
      refine dif_neg ?_
      intro upper
      exact ascii (Nat.lt_of_le_of_lt upper.2 (by decide))
    rw [none, lower]
    constructor
    · intro h
      cases h
    · rintro ⟨bound, same⟩
      have digits : ∀ w < 16, (Nat.digitChar w).toNat < 128 := by decide
      refine absurd ?_ ascii
      rw [same]
      exact digits v bound

theorem hexNumber?_eq_some_iff {a b c d : Char} {n : Nat} :
    hexNumber? a b c d = some n ↔ IsHex n [a, b, c, d] := by
  simp only [hexNumber?, Option.bind_eq_bind, Option.bind_eq_some_iff, hexValue?_eq_some_iff,
    Option.pure_def, Option.some.injEq, IsHex, hexDigits, List.map_cons, List.map_nil,
    List.cons.injEq, and_true]
  constructor
  · rintro ⟨i, ⟨hi, ha⟩, j, ⟨hj, hb⟩, k, ⟨hk, hc⟩, l, ⟨hl, hd⟩, rfl⟩
    rw [ha, hb, hc, hd]
    refine ⟨by omega, congrArg _ ?_, congrArg _ ?_, congrArg _ ?_, congrArg _ ?_⟩ <;> omega
  · rintro ⟨bound, ha, hb, hc, hd⟩
    exact ⟨_, ⟨by omega, ha⟩, _, ⟨by omega, hb⟩, _, ⟨by omega, hc⟩, _, ⟨by omega, hd⟩, by omega⟩

theorem IsHex.length {n : Nat} {h : Text} (hex : IsHex n h) : h.length = 4 := by
  simpa [hexDigits] using congrArg List.length hex.2

theorem readHex_append {n : Nat} {h : Text} (hex : IsHex n h) (rest : Text) :
    readHex (h ++ rest) = .ok (n, rest) := by
  obtain ⟨a, b, c, d, rfl⟩ := List.length_eq_four.mp hex.length
  simp only [List.cons_append, List.nil_append, readHex, hexNumber?_eq_some_iff.mpr hex]

theorem exists_hex_of_readHex {t rest : Text} {n : Nat} (h : readHex t = .ok (n, rest)) :
    ∃ hex, IsHex n hex ∧ t = hex ++ rest := by
  rw [readHex.eq_def] at h
  split at h
  · rename_i a b c d r
    split at h
    · rename_i m hm
      cases h
      exact ⟨[a, b, c, d], hexNumber?_eq_some_iff.mp hm, rfl⟩
    · exact (stopInHex_ne_ok h).elim
  · exact (stopInHex_ne_ok h).elim

theorem exists_hex_of_readLow {t rest : Text} {n : Nat} (h : readLow t = .ok (n, rest)) :
    ∃ hex, IsHex n hex ∧ t = '\\' :: 'u' :: (hex ++ rest) := by
  rw [readLow.eq_def] at h
  split at h
  · cases h
  · cases h
  · obtain ⟨hex, isHex, rfl⟩ := exists_hex_of_readHex h
    exact ⟨hex, isHex, rfl⟩
  · cases h
  · cases h

theorem toNat_ofNat {n : Nat} (valid : n.isValidChar) : (Char.ofNat n).toNat = n := by
  rw [Char.ofNat, dif_pos valid]
  rfl

/-- No character is one half of a surrogate pair. -/
theorem toNat_bounds (c : Char) :
    c.toNat < 0xD800 ∨ 0xDFFF < c.toNat ∧ c.toNat < 0x110000 :=
  c.valid

theorem isHighSurrogate_iff {n : Nat} : isHighSurrogate n = true ↔ 0xD800 ≤ n ∧ n < 0xDC00 := by
  simp [isHighSurrogate]

theorem isLowSurrogate_iff {n : Nat} : isLowSurrogate n = true ↔ 0xDC00 ≤ n ∧ n < 0xE000 := by
  simp [isLowSurrogate]

/-- A pair of surrogates is a character beyond the basic plane, and each half gives ten bits. -/
theorem toNat_ofSurrogates {high low : Nat} (isHigh : 0xD800 ≤ high ∧ high < 0xDC00)
    (isLow : 0xDC00 ≤ low ∧ low < 0xE000) :
    (ofSurrogates high low).toNat = 0x10000 + 0x400 * (high - 0xD800) + (low - 0xDC00) :=
  toNat_ofNat (.inr (by omega))

/-- The halves of a character above the first plane make that character. -/
theorem ofSurrogates_halves {c : Char} (above : 0x10000 ≤ c.toNat) :
    ofSurrogates (0xD800 + (c.toNat - 0x10000) / 0x400) (0xDC00 + (c.toNat - 0x10000) % 0x400) =
      c := by
  have bounds := toNat_bounds c
  refine Char.toNat_inj.mp ?_
  rw [toNat_ofSurrogates (by omega) (by omega)]
  omega

/-- Half of a pair alone is no character, so it is not read. -/
theorem exists_escape_of_readUnicode {t rest : Text} {c : Char}
    (h : readUnicode t = .ok (c, rest)) : ∃ e, Escape c ('u' :: e) ∧ t = e ++ rest := by
  rw [readUnicode] at h
  split at h
  · cases h
  · rename_i n after hn
    obtain ⟨hex, isHex, rfl⟩ := exists_hex_of_readHex hn
    split at h
    · cases h
    · rename_i notLow
      rw [isLowSurrogate_iff] at notLow
      split at h
      · rename_i high
        rw [isHighSurrogate_iff] at high
        split at h
        · cases h
        · rename_i low last hl
          obtain ⟨hex', isHex', rfl⟩ := exists_hex_of_readLow hl
          split at h
          · rename_i isLow
            rw [isLowSurrogate_iff] at isLow
            simp only [Except.ok.injEq, Prod.mk.injEq] at h
            obtain ⟨rfl, rfl⟩ := h
            have number := toNat_ofSurrogates high isLow
            refine ⟨hex ++ '\\' :: 'u' :: hex', .pair (by omega) ?_ ?_, by simp⟩
            · rwa [number, show 0xD800 + (0x10000 + 0x400 * (n - 0xD800) + (low - 0xDC00) -
                0x10000) / 0x400 = n by omega]
            · rwa [number, show 0xDC00 + (0x10000 + 0x400 * (n - 0xD800) + (low - 0xDC00) -
                0x10000) % 0x400 = low by omega]
          · cases h
      · rename_i notHigh
        rw [isHighSurrogate_iff] at notHigh
        simp only [Except.ok.injEq, Prod.mk.injEq] at h
        obtain ⟨rfl, rfl⟩ := h
        have bound := isHex.1
        have valid : n.isValidChar := by
          simp only [Nat.isValidChar]
          omega
        exact ⟨hex, .number (by rwa [toNat_ofNat valid]), rfl⟩

/-- A character has one form by its number or one by a pair, according to its plane. -/
theorem readUnicode_append {c : Char} {e : Text} (written : Escape c ('u' :: e)) (rest : Text) :
    readUnicode (e ++ rest) = .ok (c, rest) := by
  have bounds := toNat_bounds c
  cases written with
  | letter member => exact absurd rfl (ne_of_mem_letters member)
  | number isHex =>
    have notLow : ¬ isLowSurrogate c.toNat = true := by
      rw [isLowSurrogate_iff]
      omega
    have notHigh : ¬ isHighSurrogate c.toNat = true := by
      rw [isHighSurrogate_iff]
      omega
    rw [readUnicode, readHex_append isHex]
    simp only [if_neg notLow, if_neg notHigh, Char.ofNat_toNat]
  | pair above isHigh isLow =>
    have notLow : ¬ isLowSurrogate (0xD800 + (c.toNat - 0x10000) / 0x400) = true := by
      rw [isLowSurrogate_iff]
      omega
    have first : isHighSurrogate (0xD800 + (c.toNat - 0x10000) / 0x400) = true := by
      rw [isHighSurrogate_iff]
      omega
    have second : isLowSurrogate (0xDC00 + (c.toNat - 0x10000) % 0x400) = true := by
      rw [isLowSurrogate_iff]
      omega
    rw [readUnicode, List.append_assoc, readHex_append isHigh]
    simp only [List.cons_append, readLow, readHex_append isLow, if_neg notLow, if_pos first,
      if_pos second, ofSurrogates_halves above]

theorem readEscape_append {c : Char} {e : Text} (written : Escape c e) (rest : Text) :
    readEscape (e ++ rest) = .ok (c, rest) := by
  have unicode : ∀ {h : Text}, Escape c ('u' :: h) →
      readEscape ('u' :: (h ++ rest)) = .ok (c, rest) := fun written => by
    rw [readEscape, if_pos rfl, readUnicode_append written]
  cases written with
  | letter member =>
    rw [List.singleton_append, readEscape, if_neg (ne_of_mem_letters member)]
    simp only [escapeLetter?_eq_some_iff.mpr member]
  | number isHex => exact unicode (.number isHex)
  | pair above isHigh isLow => exact unicode (.pair above isHigh isLow)

theorem exists_escape_of_readEscape {t rest : Text} {c : Char} (h : readEscape t = .ok (c, rest)) :
    ∃ e, Escape c e ∧ t = e ++ rest := by
  cases t with
  | nil => cases h
  | cons d r =>
    rw [readEscape] at h
    split at h
    · rename_i number
      obtain ⟨e, written, rfl⟩ := exists_escape_of_readUnicode h
      exact ⟨'u' :: e, written, by rw [number]; rfl⟩
    · split at h
      · rename_i x letter
        cases h
        exact ⟨[d], .letter (escapeLetter?_eq_some_iff.mp letter), rfl⟩
      · cases h

theorem passEscape_append {e : Text} (written : IsEscape e) (rest : Text) :
    passEscape (e ++ rest) = .ok rest := by
  cases written with
  | letter member =>
    rw [List.singleton_append, passEscape, if_neg (ne_of_mem_letters member)]
    simp only [escapeLetter?_eq_some_iff.mpr member]
  | number isHex =>
    rw [List.cons_append, passEscape, if_pos rfl, readHex_append isHex]
    rfl

theorem exists_escape_of_passEscape {t rest : Text} (h : passEscape t = .ok rest) :
    ∃ e, IsEscape e ∧ t = e ++ rest := by
  cases t with
  | nil => cases h
  | cons d r =>
    rw [passEscape] at h
    split at h
    · rename_i number
      obtain ⟨⟨n, after⟩, read, same⟩ := ok_of_map h
      cases same
      obtain ⟨hex, isHex, rfl⟩ := exists_hex_of_readHex read
      exact ⟨'u' :: hex, .number isHex, by rw [number]; rfl⟩
    · split at h
      · rename_i x letter
        cases h
        exact ⟨[d], .letter (escapeLetter?_eq_some_iff.mp letter), rfl⟩
      · cases h

theorem isControl_iff {c : Char} : isControl c = true ↔ c.toNat < 0x20 := by
  simp [isControl]

theorem readString_append {t body : Text} (written : Written Escape t body) (rest : Text) :
    readString (body ++ '"' :: rest) = .ok (t, rest) := by
  induction written with
  | nil => rw [List.nil_append, readString, if_pos rfl]
  | plain notQuote notEscape notControl _ ih =>
    rw [List.cons_append, readString, if_neg notQuote, if_neg notEscape,
      if_neg (by rw [isControl_iff]; omega), ih]
    rfl
  | escaped escape _ ih =>
    rw [List.cons_append, List.append_assoc, readString, if_neg (by decide), if_pos rfl]
    split
    · rename_i stop hs
      rw [readEscape_append escape] at hs
      cases hs
    · rename_i x after hx
      rw [readEscape_append escape] at hx
      cases hx
      rw [ih]
      rfl

/-- By the recursion of the reader, one written character at a time. -/
theorem exists_body_of_readString {t u rest : Text} (h : readString t = .ok (u, rest)) :
    ∃ body, Written Escape u body ∧ t = body ++ '"' :: rest := by
  fun_induction readString t generalizing u with
  | case1 => cases h
  | case2 r => cases h; exact ⟨[], .nil, rfl⟩
  | case3 => cases h
  | case4 r x after hx _ ih =>
    obtain ⟨⟨v, last⟩, read, same⟩ := ok_of_map h
    cases same
    obtain ⟨e, escape, rfl⟩ := exists_escape_of_readEscape hx
    obtain ⟨body, written, rfl⟩ := ih read
    exact ⟨'\\' :: (e ++ body), .escaped escape written, by simp⟩
  | case5 => cases h
  | case6 c r notQuote notEscape notControl ih =>
    obtain ⟨⟨v, last⟩, read, same⟩ := ok_of_map h
    cases same
    rw [isControl_iff, Nat.not_lt] at notControl
    obtain ⟨body, written, rfl⟩ := ih read
    exact ⟨c :: body, .plain notQuote notEscape notControl written, rfl⟩

theorem passString_append {t body : Text} (written : Written (fun _ => IsEscape) t body)
    (rest : Text) : passString (body ++ '"' :: rest) = .ok rest := by
  induction written with
  | nil => rw [List.nil_append, passString, if_pos rfl]
  | plain notQuote notEscape notControl _ ih =>
    rw [List.cons_append, passString, if_neg notQuote, if_neg notEscape,
      if_neg (by rw [isControl_iff]; omega), ih]
  | escaped escape _ ih =>
    rw [List.cons_append, List.append_assoc, passString, if_neg (by decide), if_pos rfl]
    split
    · rename_i stop hs
      rw [passEscape_append escape] at hs
      cases hs
    · rename_i after hx
      rw [passEscape_append escape] at hx
      cases hx
      rw [ih]

theorem exists_body_of_passString {t rest : Text} (h : passString t = .ok rest) :
    ∃ u body, Written (fun _ => IsEscape) u body ∧ t = body ++ '"' :: rest := by
  fun_induction passString t with
  | case1 => cases h
  | case2 r => cases h; exact ⟨[], [], .nil, rfl⟩
  | case3 => cases h
  | case4 r after hx _ ih =>
    obtain ⟨e, escape, rfl⟩ := exists_escape_of_passEscape hx
    obtain ⟨u, body, written, rfl⟩ := ih h
    exact ⟨'\\' :: u, '\\' :: (e ++ body), .escaped escape written, by simp⟩
  | case5 => cases h
  | case6 c r notQuote notEscape notControl ih =>
    rw [isControl_iff, Nat.not_lt] at notControl
    obtain ⟨u, body, written, rfl⟩ := ih h
    exact ⟨c :: u, c :: body, .plain notQuote notEscape notControl written, rfl⟩

/-- The escapes of characters are escapes of the grammar, a surrogate pair being two of them. -/
theorem Written.loose {t body : Text} (h : Written Escape t body) :
    ∃ u, Written (fun _ => IsEscape) u body := by
  induction h with
  | nil => exact ⟨[], .nil⟩
  | @plain c _ _ notQuote notEscape notControl _ ih =>
    obtain ⟨u, written⟩ := ih
    exact ⟨c :: u, .plain notQuote notEscape notControl written⟩
  | @escaped c _ _ s escape _ ih =>
    obtain ⟨u, written⟩ := ih
    cases escape with
    | letter member => exact ⟨c :: u, .escaped (.letter member) written⟩
    | number isHex => exact ⟨c :: u, .escaped (.number isHex) written⟩
    | @pair _ high low _ isHigh isLow =>
      have second : Written (fun _ => IsEscape) (c :: u) ('\\' :: ('u' :: low ++ s)) :=
        .escaped (.number isLow) written
      have first : Written (fun _ => IsEscape) (c :: c :: u)
          ('\\' :: ('u' :: high ++ '\\' :: ('u' :: low ++ s))) :=
        .escaped (.number isHigh) second
      exact ⟨c :: c :: u, by simpa using first⟩

/-- Every literal that spells a text is one of the grammar, which has more than those. -/
theorem Quoted.isLiteral {t s : Text} (h : Quoted t s) : IsLiteral s := by
  obtain ⟨body, written, rfl⟩ := h
  obtain ⟨u, loose⟩ := written.loose
  exact ⟨u, body, loose, rfl⟩

end ProtoPrep.Json
