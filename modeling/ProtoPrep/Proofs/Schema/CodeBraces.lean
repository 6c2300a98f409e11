import ProtoPrep.Proofs.Schema.HttpOption

/-!
# Braces in code

The braces that count are those in code. The removal of HTTP options keeps their
balance and the mode at the end of the text, provided that options begin in code
only and every slash in code opens a comment: then the scan for the end of a value,
which starts anew in code, is in step with the reading of the whole text.
-/

namespace ProtoPrep

namespace Mode

/-- What a character adds to the braces that are open in code. -/
def weight (mode : Mode) (c : Char) : Int :=
  if mode.isCode then (if c = '{' then 1 else if c = '}' then -1 else 0) else 0

/-- Opening minus closing braces in code, from the given mode on. -/
def codeBraces : Mode → Text → Int
  | _, [] => 0
  | mode, c :: rest => mode.weight c + codeBraces (mode.step c) rest

/-- The second text is read from the mode in which the first one ends. -/
theorem codeBraces_append (mode : Mode) (s t : Text) :
    mode.codeBraces (s ++ t) = mode.codeBraces s + (mode.run s).codeBraces t := by
  induction s generalizing mode with
  | nil => simp [codeBraces, run]
  | cons c s ih =>
    have later := ih (mode.step c)
    simp only [List.cons_append, codeBraces, later, run, List.foldl_cons]
    omega

theorem run_cons (mode : Mode) (c : Char) (t : Text) : mode.run (c :: t) = (mode.step c).run t :=
  rfl

theorem weight_open {mode : Mode} (is_code : mode.isCode = true) : mode.weight '{' = 1 := by
  simp [weight, is_code]

theorem weight_close {mode : Mode} (is_code : mode.isCode = true) : mode.weight '}' = -1 := by
  simp [weight, is_code]

/-- A character that leaves code as it is and is no brace. -/
def Inert (c : Char) : Prop :=
  afterCode c = code ∧ c ≠ '{' ∧ c ≠ '}'

instance (c : Char) : Decidable (Inert c) :=
  inferInstanceAs (Decidable (_ ∧ _ ∧ _))

theorem run_of_inert {s : Text} (inert : ∀ c ∈ s, Inert c) :
    code.run s = code ∧ code.codeBraces s = 0 := by
  induction s with
  | nil => exact ⟨rfl, rfl⟩
  | cons c s ih =>
    obtain ⟨stays, not_open, not_close⟩ := inert c List.mem_cons_self
    have later := ih fun d hd => inert d (List.mem_cons_of_mem c hd)
    have here : code.step c = code := stays
    rw [run_cons, codeBraces, here, later.1, later.2]
    simp [weight, not_open, not_close]

/-- A brace or a semicolon in code is followed by code. -/
theorem step_eq_code {mode : Mode} {c : Char} (is_code : mode.isCode = true)
    (decisive : c = '{' ∨ c = '}' ∨ c = ';') : mode.step c = code := by
  cases mode with
  | code => rcases decisive with rfl | rfl | rfl <;> rfl
  | slash => rcases decisive with rfl | rfl | rfl <;> rfl
  | _ => cases is_code

theorem eq_slash_of_afterCode {c : Char} (h : afterCode c = slash) : c = '/' := by
  rw [afterCode] at h
  split at h
  · assumption
  · split at h <;> cases h

/-- Only a slash in code may open a comment. -/
theorem of_step_eq_slash {mode : Mode} {c : Char} (h : mode.step c = slash) :
    mode = code ∧ c = '/' := by
  cases mode with
  | code => exact ⟨rfl, eq_slash_of_afterCode h⟩
  | slash =>
    rw [step] at h
    split at h
    · cases h
    · rename_i other
      split at h
      · cases h
      · exact absurd (eq_slash_of_afterCode h) other
  | string quote =>
    rw [step] at h
    split at h
    · cases h
    · split at h <;> cases h
  | escape quote => cases h
  | lineComment =>
    rw [step] at h
    split at h <;> cases h
  | blockComment =>
    rw [step] at h
    split at h <;> cases h
  | blockStar =>
    rw [step] at h
    split at h
    · cases h
    · split at h <;> cases h

end Mode

namespace OptionValue

open Mode

/-- A value ends in code, where as many braces are closed as were open. -/
theorem Closes.run_codeBraces {mode : Mode} {depth : Nat} {span : Text}
    (h : Closes mode depth span) : mode.run span = code ∧ mode.codeBraces span = -depth := by
  induction h with
  | @pass mode depth c span inert later ih =>
    have light : mode.weight c = 0 := by
      by_cases is_code : mode.isCode = true
      · simp [weight, (inert is_code).1, (inert is_code).2.1]
      · simp [weight, is_code]
    rw [run_cons, codeBraces, light, ih.2]
    exact ⟨ih.1, by omega⟩
  | opening is_code later ih =>
    rw [run_cons, codeBraces, ih.2, weight_open is_code]
    exact ⟨ih.1, by omega⟩
  | closing is_code later ih =>
    rw [run_cons, codeBraces, ih.2, weight_close is_code]
    exact ⟨ih.1, by omega⟩
  | @brace mode semicolons is_code only =>
    have inert : ∀ c ∈ semicolons, Inert c := by
      intro c member
      rw [only c member]
      decide
    have rest := run_of_inert inert
    rw [run_cons, codeBraces, weight_close is_code, step_eq_code is_code (Or.inr (Or.inl rfl)),
      rest.1, rest.2]
    exact ⟨rfl, rfl⟩
  | semicolon is_code =>
    rw [run_cons, codeBraces, step_eq_code is_code (Or.inr (Or.inr rfl))]
    simp [weight, codeBraces, run]

end OptionValue

namespace HttpOption

open Mode

/-- Every option begins in code, also where its value has no end. -/
def OptionsInCode (t : Text) : Prop :=
  ∀ lead trigger after, IsTrigger name trigger → t = lead ++ (trigger ++ after) →
    (code.run lead).isCode = true

/-- Every slash in code opens a comment. -/
def SlashesOpen (t : Text) : Prop :=
  ∀ lead after, t = lead ++ '/' :: after → code.run lead = code →
    after.head? = some '/' ∨ after.head? = some '*'

/-- A text, read from the given mode on, in which a scan that starts anew behind the beginning of
an option agrees with the reading of the whole. -/
structure InStep (mode : Mode) (t : Text) : Prop where
  options : ∀ lead trigger after, IsTrigger name trigger → t = lead ++ (trigger ++ after) →
    (mode.run lead).isCode = true
  slashes : ∀ lead after, t = lead ++ '/' :: after → mode.run lead = code →
    after.head? = some '/' ∨ after.head? = some '*'
  /-- A slash that was read last opens a comment as well. -/
  pending : mode = slash → t.head? = some '/' ∨ t.head? = some '*'

namespace InStep

variable {mode : Mode} {s t : Text}

theorem tail {c : Char} (h : InStep mode (c :: t)) : InStep (mode.step c) t where
  options lead trigger after written whole :=
    h.options (c :: lead) trigger after written (by rw [whole]; rfl)
  slashes lead after whole is_code :=
    h.slashes (c :: lead) after (by rw [whole]; rfl) is_code
  pending opened := by
    obtain ⟨rfl, rfl⟩ := of_step_eq_slash opened
    exact h.slashes [] t rfl rfl

theorem drop (h : InStep mode (s ++ t)) : InStep (mode.run s) t := by
  induction s generalizing mode with
  | nil => exact h
  | cons c s ih => exact ih h.tail

/-- An option begins in code, and not behind a slash. -/
theorem eq_code {trigger after : Text} (h : InStep mode (trigger ++ after))
    (written : IsTrigger name trigger) : mode = code := by
  have is_code : mode.isCode = true := h.options [] trigger after written rfl
  cases mode with
  | code => rfl
  | slash =>
    obtain ⟨keyword, rfl⟩ := written.exists_keyword
    rcases h.pending rfl with first | first <;> cases first
  | _ => cases is_code

end InStep

/-- The beginning of an option holds no quote, slash or brace. -/
theorem run_trigger {trigger : Text} (h : IsTrigger name trigger) :
    code.run trigger = code ∧ code.codeBraces trigger = 0 := by
  apply run_of_inert
  intro c member
  rcases h.mem_or_isBlank member with known | blank
  · have inert : ("option".toList ++ '(' :: name ++ [')']).all (Inert ·) = true := by decide
    exact of_decide_eq_true (List.all_eq_true.mp inert c known)
  · have other : ∀ d, isBlank d = false → c ≠ d := by
      rintro d not_blank rfl
      rw [blank] at not_blank
      cases not_blank
    refine ⟨?_, other '{' (by decide), other '}' (by decide)⟩
    rw [afterCode, if_neg (other '/' (by decide)), if_neg]
    rintro (quote | quote)
    · exact other '"' (by decide) quote
    · exact other '\'' (by decide) quote

/-- An option that is cut out begins and ends in code and closes the braces it opens. -/
theorem run_option {trigger value rest : Text} (written : IsTrigger name trigger)
    (ends : OptionValue.rest? (value ++ rest) = some rest) :
    code.run (trigger ++ value) = code ∧ code.codeBraces (trigger ++ value) = 0 := by
  obtain ⟨span, closes, same⟩ := OptionValue.closes_of_rest? ends
  obtain rfl := List.append_cancel_right same
  have first := run_trigger written
  have second := closes.run_codeBraces
  rw [run_append, codeBraces_append, first.1, first.2, second.1, second.2]
  exact ⟨rfl, rfl⟩

/-- The kept pieces are read as they were in the whole text. -/
theorem Divides.keeps_braces {t : Text} {ps : List Piece} (h : Divides t ps) {mode : Mode}
    (step : InStep mode t) :
    mode.codeBraces (ps.flatMap Piece.kept) = mode.codeBraces t ∧
      mode.run (ps.flatMap Piece.kept) = mode.run t := by
  induction h generalizing mode with
  | done => exact ⟨rfl, rfl⟩
  | @plain c r ps unmatched later ih =>
    have rest := ih step.tail
    rw [List.flatMap_cons, Piece.kept, List.singleton_append, codeBraces, codeBraces, run_cons,
      run_cons, rest.1, rest.2]
    exact ⟨rfl, rfl⟩
  | @unterminated trigger value ps written endless later ih =>
    have rest := ih step.drop
    rw [List.flatMap_cons, Piece.kept, codeBraces_append, codeBraces_append, run_append,
      run_append, rest.1, rest.2]
    exact ⟨rfl, rfl⟩
  | @option trigger value rest ps written ends later ih =>
    obtain rfl := step.eq_code written
    have cut := run_option written ends
    rw [← List.append_assoc] at step ⊢
    have behind := ih (cut.1 ▸ step.drop)
    rw [List.flatMap_cons, Piece.kept, List.nil_append, codeBraces_append code (trigger ++ value),
      run_append code (trigger ++ value), cut.1, cut.2, behind.1, behind.2]
    exact ⟨(Int.zero_add _).symm, rfl⟩

/-- Removing HTTP options keeps the balance of the braces in code and the mode at the end. -/
theorem strip_keeps_braces {t : Text} (options : OptionsInCode t) (slashes : SlashesOpen t) :
    code.codeBraces (strip t) = code.codeBraces t ∧ code.run (strip t) = code.run t :=
  (divides_pieces t).keeps_braces ⟨options, slashes, nofun⟩

theorem optionsInCode_iff {t : Text} : OptionsInCode t ↔ ∀ n ≤ t.length,
    (OptionTrigger.rest? name (t.drop n)).isSome = true → (code.run (t.take n)).isCode = true := by
  constructor
  · intro options n _ begins
    obtain ⟨after, read⟩ := Option.isSome_iff_exists.mp begins
    obtain ⟨trigger, written, split⟩ := OptionTrigger.rest?_eq_some_iff.mp read
    exact options _ trigger after written (by rw [split, List.take_append_drop])
  · rintro positions lead trigger after written rfl
    have here := positions lead.length (by simp)
    rw [List.drop_left, List.take_left, OptionTrigger.rest?_append written] at here
    exact here rfl

theorem slashesOpen_iff {t : Text} : SlashesOpen t ↔ ∀ n ≤ t.length,
    (t.drop n).head? = some '/' → code.run (t.take n) = code →
      (t.drop (n + 1)).head? = some '/' ∨ (t.drop (n + 1)).head? = some '*' := by
  constructor
  · intro slashes n _ first
    obtain ⟨after, here⟩ := List.head?_eq_some_iff.mp first
    rw [← List.tail_drop, here]
    exact slashes _ after (by rw [← here, List.take_append_drop])
  · rintro positions lead after rfl is_code
    have here := positions lead.length (by simp)
    simpa [is_code, List.drop_append] using here

instance (t : Text) : Decidable (OptionsInCode t) :=
  decidable_of_iff' _ optionsInCode_iff

instance (t : Text) : Decidable (SlashesOpen t) :=
  decidable_of_iff' _ slashesOpen_iff

/-- A method with a brace and a quote in a comment before its option, and one in a string. -/
theorem strip_keeps_braces_of_method :
    let t := "\x7b/*'*/ option (google.api.http) = \x7b get: \"/\x7bid\" \x7d; // it's\n\x7d".toList
    OptionsInCode t ∧ SlashesOpen t ∧
      code.codeBraces (strip t) = code.codeBraces t ∧ code.run (strip t) = code.run t := by
  intro t
  have options : OptionsInCode t := by decide
  have slashes : SlashesOpen t := by decide
  exact ⟨options, slashes, strip_keeps_braces options slashes⟩

end HttpOption

end ProtoPrep
