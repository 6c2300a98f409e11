import Mathlib.Data.List.TakeWhile
import ProtoPrep.Schema.OptionValue

/-!
# What the scan for the end of a value passes

The scan stops behind a text that closes every brace around it. `Closes` says so
character by character; in particular the text ends in a brace or a semicolon.
-/

namespace ProtoPrep.OptionValue

/-- A character that decides nothing is passed over. -/
theorem scan_pass {mode : Mode} {depth : Nat} {c : Char}
    (inert : mode.isCode = true → c ≠ '{' ∧ c ≠ '}' ∧ (c = ';' → depth ≠ 0)) (t : Text) :
    scan mode depth (c :: t) = scan (mode.step c) depth t := by
  by_cases is_code : mode.isCode = true
  · obtain ⟨not_open, not_close, not_end⟩ := inert is_code
    rw [scan, if_pos is_code]
    · exact not_open
    · exact fun close => absurd close not_close
    · exact fun close => absurd close not_close
    · exact fun _ close => absurd close not_close
    · exact not_end
  · cases mode with
    | code => exact absurd rfl is_code
    | slash => exact absurd rfl is_code
    | _ => rfl

/-- A character outside code is passed over. -/
theorem scan_outside {mode : Mode} (outside : mode.isCode = false) {depth : Nat} (c : Char)
    (t : Text) : scan mode depth (c :: t) = scan (mode.step c) depth t :=
  scan_pass (fun is_code => by rw [outside] at is_code; cases is_code) t

/-- A character that decides nothing in code decides nothing elsewhere. -/
theorem scan_indecisive {c : Char} (indecisive : c ∉ ['{', '}', ';']) (mode : Mode) (depth : Nat)
    (t : Text) : scan mode depth (c :: t) = scan (mode.step c) depth t := by
  simp only [List.mem_cons, List.not_mem_nil, or_false, not_or] at indecisive
  exact scan_pass
    (fun _ => ⟨indecisive.1, indecisive.2.1, fun same => absurd same indecisive.2.2⟩) t

/-- What the last case of the scan excludes is a closing brace. -/
theorem ne_closing {c : Char} {depth : Nat} (not_zero : c = '}' → depth = 0 → False)
    (not_one : c = '}' → depth = 1 → False) (not_more : ∀ d, c = '}' → depth = d + 2 → False) :
    c ≠ '}' := by
  intro closing
  rcases depth with _ | _ | d
  · exact not_zero closing rfl
  · exact not_one closing rfl
  · exact not_more d closing rfl

/-- A text that leads from within `depth` braces to the end of the value. -/
inductive Closes : Mode → Nat → Text → Prop where
  /-- A character that neither opens nor closes anything. -/
  | pass {mode : Mode} {depth : Nat} {c : Char} {span : Text}
      (inert : mode.isCode = true → c ≠ '{' ∧ c ≠ '}' ∧ (c = ';' → depth ≠ 0))
      (later : Closes (mode.step c) depth span) : Closes mode depth (c :: span)
  | opening {mode : Mode} {depth : Nat} {span : Text} (code : mode.isCode = true)
      (later : Closes (mode.step '{') (depth + 1) span) : Closes mode depth ('{' :: span)
  | closing {mode : Mode} {depth : Nat} {span : Text} (code : mode.isCode = true)
      (later : Closes (mode.step '}') (depth + 1) span) : Closes mode (depth + 2) ('}' :: span)
  /-- The balanced brace takes the semicolons after it along. -/
  | brace {mode : Mode} {semicolons : Text} (code : mode.isCode = true)
      (only : ∀ c ∈ semicolons, c = ';') : Closes mode 1 ('}' :: semicolons)
  | semicolon {mode : Mode} (code : mode.isCode = true) : Closes mode 0 [';']

theorem closes_of_scan {mode : Mode} {depth : Nat} {t rest : Text}
    (h : scan mode depth t = some rest) : ∃ span, Closes mode depth span ∧ span ++ rest = t := by
  fun_induction scan mode depth t with
  | case1 => cases h
  | case2 mode r code depth ih =>
    obtain ⟨span, later, rfl⟩ := ih h
    exact ⟨_, .opening code later, rfl⟩
  | case3 => cases h
  | case4 mode r code =>
    cases h
    have only : ∀ c ∈ r.takeWhile (· = ';'), c = ';' := fun c hc => by
      simpa using List.mem_takeWhile_imp hc
    exact ⟨_, .brace code only, by rw [List.cons_append, List.takeWhile_append_dropWhile]⟩
  | case5 mode r code depth ih =>
    obtain ⟨span, later, rfl⟩ := ih h
    exact ⟨_, .closing code later, rfl⟩
  | case6 mode r code =>
    cases h
    exact ⟨_, .semicolon code, rfl⟩
  | case7 mode c r code depth not_open not_zero not_one not_more not_semicolon ih =>
    obtain ⟨span, later, rfl⟩ := ih h
    exact ⟨_,
      .pass (fun _ => ⟨not_open, ne_closing not_zero not_one not_more, not_semicolon⟩) later,
      rfl⟩
  | case8 mode depth c r not_code ih =>
    obtain ⟨span, later, rfl⟩ := ih h
    exact ⟨_, .pass (fun code => absurd code not_code) later, rfl⟩

theorem Closes.exists_last {mode : Mode} {depth : Nat} {span : Text} (h : Closes mode depth span) :
    ∃ body c, span = body ++ [c] ∧ (c = '}' ∨ c = ';') := by
  induction h with
  | pass _ _ ih =>
    obtain ⟨body, c, rfl, last⟩ := ih
    exact ⟨_ :: body, c, rfl, last⟩
  | opening _ _ ih =>
    obtain ⟨body, c, rfl, last⟩ := ih
    exact ⟨'{' :: body, c, rfl, last⟩
  | closing _ _ ih =>
    obtain ⟨body, c, rfl, last⟩ := ih
    exact ⟨'}' :: body, c, rfl, last⟩
  | @brace _ semicolons _ only =>
    rcases List.eq_nil_or_concat semicolons with rfl | ⟨others, c, rfl⟩
    · exact ⟨[], '}', rfl, Or.inl rfl⟩
    · exact ⟨'}' :: others, c, by simp, Or.inr (only c (by simp))⟩
  | semicolon _ => exact ⟨[], ';', rfl, Or.inr rfl⟩

theorem closes_of_rest? {t rest : Text} (h : rest? t = some rest) :
    ∃ span, Closes .code 0 span ∧ span ++ rest = t :=
  closes_of_scan h

variable {after : Text}

theorem dropWhile_semicolons_append (apart : after.head? ≠ some ';') (t : Text) :
    (t ++ after).dropWhile (· = ';') = t.dropWhile (· = ';') ++ after := by
  induction t with
  | nil =>
    cases after with
    | nil => rfl
    | cons c after =>
      have other : c ≠ ';' := fun same => apart (by rw [same]; rfl)
      simp [other]
  | cons c t ih =>
    by_cases semicolon : c = ';'
    · simpa [semicolon] using ih
    · simp [semicolon]

/-- A value that ends within a text ends there too if the text goes on, unless it goes on with a
semicolon. -/
theorem scan_append (apart : after.head? ≠ some ';') {mode : Mode} {depth : Nat} {t rest : Text}
    (h : scan mode depth t = some rest) : scan mode depth (t ++ after) = some (rest ++ after) := by
  fun_induction scan mode depth t with
  | case1 => cases h
  | case2 mode r is_code depth ih =>
    rw [List.cons_append, scan, if_pos is_code]
    exact ih h
  | case3 => cases h
  | case4 mode r is_code =>
    cases h
    rw [List.cons_append, scan, if_pos is_code, dropWhile_semicolons_append apart]
  | case5 mode r is_code depth ih =>
    rw [List.cons_append, scan, if_pos is_code]
    exact ih h
  | case6 mode r is_code =>
    cases h
    rw [List.cons_append, scan, if_pos is_code]
  | case7 mode c r is_code depth not_open not_zero not_one not_more not_semicolon ih =>
    have not_close := ne_closing not_zero not_one not_more
    rw [List.cons_append, scan_pass fun _ => ⟨not_open, not_close, not_semicolon⟩]
    exact ih h
  | case8 mode depth c r not_code ih =>
    rw [List.cons_append, scan_pass fun is_code => absurd is_code not_code]
    exact ih h

/-- What follows a value has no part in where it ends, unless it begins with a semicolon. -/
theorem rest?_append (apart : after.head? ≠ some ';') {t rest : Text} (h : rest? t = some rest) :
    rest? (t ++ after) = some (rest ++ after) :=
  scan_append apart h

end ProtoPrep.OptionValue
