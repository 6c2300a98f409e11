import ProtoPrep.Proofs.Schema.CodeBraces

/-!
# Comments and the removal of options

Erasing the bodies of comments leaves their delimiters and everything else. If the
removal comes to options in code only, erasing first and cutting options out first come
to the same; so texts that differ in their comments only are still such texts
afterwards. A beginning in a comment is cut out like any other, unless it is inside an
option that is cut out, and takes code behind the comment along.
-/

namespace ProtoPrep

namespace Mode

/-- What stays of a character when the bodies of comments are erased. The end of a block comment
is put back whole at its slash. -/
def outsideComment : Mode → Char → Text
  | lineComment, c => if c = '\n' then ['\n'] else []
  | blockComment, _ => []
  | blockStar, c => if c = '/' then ['*', '/'] else []
  | _, c => [c]

/-- A text without the bodies of its comments, read from the given mode on. -/
def eraseComments : Mode → Text → Text
  | _, [] => []
  | mode, c :: rest => mode.outsideComment c ++ eraseComments (mode.step c) rest

def inComment : Mode → Bool
  | lineComment => true
  | blockComment => true
  | blockStar => true
  | _ => false

/-- The mode in which the erased text is read: an asterisk in a block comment is not there. -/
def erased : Mode → Mode
  | blockStar => blockComment
  | mode => mode

theorem eraseComments_append (mode : Mode) (s t : Text) :
    mode.eraseComments (s ++ t) = mode.eraseComments s ++ (mode.run s).eraseComments t := by
  induction s generalizing mode with
  | nil => rfl
  | cons c s ih =>
    rw [List.cons_append, eraseComments, eraseComments, ih, run_cons, List.append_assoc]

theorem outsideComment_of_not_inComment {mode : Mode} (outside : mode.inComment = false)
    (c : Char) : mode.outsideComment c = [c] := by
  cases mode with
  | code => rfl
  | slash => rfl
  | string quote => rfl
  | escape quote => rfl
  | _ => cases outside

/-- Only inside a comment does erasing lose a character that the mode has seen. -/
theorem erased_of_not_inComment {mode : Mode} (outside : mode.inComment = false) :
    mode.erased = mode := by
  cases mode with
  | blockStar => cases outside
  | _ => rfl

theorem inComment_of_isCode {mode : Mode} (is_code : mode.isCode = true) :
    mode.inComment = false := by
  cases mode with
  | code => rfl
  | slash => rfl
  | _ => cases is_code

theorem afterCode_inComment (c : Char) : (afterCode c).inComment = false := by
  rw [afterCode]
  split
  · rfl
  · split <;> rfl

/-- Only a slash or an asterisk begins a comment. -/
theorem step_inComment {mode : Mode} (outside : mode.inComment = false) {c : Char}
    (not_slash : c ≠ '/') (not_star : c ≠ '*') : (mode.step c).inComment = false := by
  cases mode with
  | code => exact afterCode_inComment c
  | slash =>
    rw [step, if_neg not_slash, if_neg not_star]
    exact afterCode_inComment c
  | string quote =>
    rw [step]
    split
    · rfl
    · split <;> rfl
  | escape quote => rfl
  | _ => cases outside

theorem erased_afterCode (c : Char) : (afterCode c).erased = afterCode c :=
  erased_of_not_inComment (afterCode_inComment c)

/-- Reading what stays of a character leads to the mode that reading the character leads to. -/
theorem run_outsideComment (mode : Mode) (c : Char) :
    mode.erased.run (mode.outsideComment c) = (mode.step c).erased := by
  cases mode with
  | code => exact (erased_afterCode c).symm
  | slash =>
    change step slash c = (step slash c).erased
    rw [step]
    split
    · rfl
    · split
      · rfl
      · exact (erased_afterCode c).symm
  | string quote =>
    change step (string quote) c = (step (string quote) c).erased
    rw [step]
    split
    · rfl
    · split <;> rfl
  | escape quote => rfl
  | lineComment =>
    by_cases ends : c = '\n'
    · subst ends
      rfl
    · simp [outsideComment, step, erased, run, ends]
  | blockComment =>
    by_cases star : c = '*'
    · subst star
      rfl
    · simp [outsideComment, step, erased, run, star]
  | blockStar =>
    by_cases closes : c = '/'
    · subst closes
      rfl
    · by_cases star : c = '*'
      · subst star
        rfl
      · simp [outsideComment, step, erased, run, closes, star]

theorem eraseComments_cons {mode : Mode} (outside : mode.inComment = false) (c : Char) (t : Text) :
    mode.eraseComments (c :: t) = c :: (mode.step c).eraseComments t := by
  rw [eraseComments, outsideComment_of_not_inComment outside, List.singleton_append]

theorem erased_step {mode : Mode} (outside : mode.inComment = false) (c : Char) :
    (mode.step c).erased = mode.step c := by
  have read := run_outsideComment mode c
  rw [outsideComment_of_not_inComment outside, erased_of_not_inComment outside] at read
  exact read.symm

/-- A text without slashes and asterisks is not changed outside comments. -/
theorem eraseComments_of_plain {mode : Mode} (outside : mode.inComment = false) {s : Text}
    (plain : ∀ c ∈ s, c ≠ '/' ∧ c ≠ '*') :
    mode.eraseComments s = s ∧ (mode.run s).inComment = false := by
  induction s generalizing mode with
  | nil => exact ⟨rfl, outside⟩
  | cons c s ih =>
    obtain ⟨here, others⟩ := List.forall_mem_cons.mp plain
    have later := ih (step_inComment outside here.1 here.2) others
    rw [eraseComments_cons outside, later.1]
    exact ⟨rfl, later.2⟩

/-- Where an erased text begins with a plain text, the text itself does. -/
theorem append_of_eraseComments_eq {mode : Mode} (outside : mode.inComment = false)
    {lead rest t : Text} (plain : ∀ c ∈ lead, c ≠ '/' ∧ c ≠ '*')
    (begins : mode.eraseComments t = lead ++ rest) : ∃ tail, t = lead ++ tail := by
  induction lead generalizing mode t with
  | nil => exact ⟨t, rfl⟩
  | cons c lead ih =>
    obtain ⟨here, others⟩ := List.forall_mem_cons.mp plain
    cases t with
    | nil => cases begins
    | cons d t =>
      rw [eraseComments_cons outside] at begins
      injection begins with same begins
      subst same
      obtain ⟨tail, rfl⟩ := ih (step_inComment outside here.1 here.2) others begins
      exact ⟨tail, rfl⟩

end Mode

namespace OptionValue

open Mode

/-- A character of a comment does not move the end of a value, erased or not. -/
theorem scan_outsideComment {mode : Mode} (inside : mode.inComment = true) (depth : Nat)
    (c : Char) (t : Text) : scan mode.erased depth (mode.outsideComment c ++ t) =
      scan (mode.step c).erased depth t := by
  rw [← run_outsideComment mode c]
  cases mode with
  | lineComment =>
    by_cases ends : c = '\n'
    · subst ends
      exact scan_outside rfl '\n' t
    · simp [outsideComment, run, ends]
  | blockComment => rfl
  | blockStar =>
    by_cases closes : c = '/'
    · subst closes
      exact (scan_outside rfl '*' ('/' :: t)).trans (scan_outside rfl '/' t)
    · simp [outsideComment, run, closes]
  | _ => cases inside

theorem scan_erased_cons {mode : Mode} (outside : mode.inComment = false) (depth : Nat)
    (c : Char) (t : Text) : scan mode.erased depth (mode.eraseComments (c :: t)) =
      scan mode depth (c :: (mode.step c).eraseComments t) := by
  rw [eraseComments_cons outside, erased_of_not_inComment outside]

/-- Semicolons directly behind a brace are code. -/
theorem dropWhile_eraseComments (t : Text) : (code.eraseComments t).dropWhile (· = ';') =
    code.eraseComments (t.dropWhile (· = ';')) := by
  induction t with
  | nil => rfl
  | cons c t ih =>
    have here : code.eraseComments (c :: t) = c :: (code.step c).eraseComments t :=
      eraseComments_cons rfl c t
    by_cases semicolon : c = ';'
    · subst semicolon
      rw [here, List.dropWhile_cons_of_pos rfl, List.dropWhile_cons_of_pos rfl, ← ih]
      rfl
    · rw [here, List.dropWhile_cons_of_neg (by simpa using semicolon),
        List.dropWhile_cons_of_neg (by simpa using semicolon), here]

/-- A value ends at the same place without the bodies of comments. -/
theorem scan_eraseComments (mode : Mode) (depth : Nat) (t : Text) :
    scan mode.erased depth (mode.eraseComments t) =
      (scan mode depth t).map code.eraseComments := by
  -- Outside comments both sides read the same character; inside, the left one reads what stays
  -- of it, and neither comes to an end there.
  fun_induction scan mode depth t with
  | case1 => rfl
  | case2 mode r is_code depth ih =>
    have outside := inComment_of_isCode is_code
    rw [scan_erased_cons outside, ← ih, erased_step outside, scan, if_pos is_code]
  | case3 mode r is_code =>
    rw [scan_erased_cons (inComment_of_isCode is_code), scan, if_pos is_code]
    rfl
  | case4 mode r is_code =>
    rw [scan_erased_cons (inComment_of_isCode is_code), scan, if_pos is_code,
      step_eq_code is_code (Or.inr (Or.inl rfl))]
    exact congrArg some (dropWhile_eraseComments r)
  | case5 mode r is_code depth ih =>
    have outside := inComment_of_isCode is_code
    rw [scan_erased_cons outside, ← ih, erased_step outside, scan, if_pos is_code]
  | case6 mode r is_code =>
    rw [scan_erased_cons (inComment_of_isCode is_code), scan, if_pos is_code,
      step_eq_code is_code (Or.inr (Or.inr rfl))]
    rfl
  | case7 mode c r is_code depth not_open not_zero not_one not_more not_semicolon ih =>
    have outside := inComment_of_isCode is_code
    have not_close := ne_closing not_zero not_one not_more
    rw [scan_erased_cons outside, ← ih, erased_step outside]
    exact scan_pass (fun _ => ⟨not_open, not_close, not_semicolon⟩) _
  | case8 mode depth c r not_code ih =>
    by_cases inside : mode.inComment = true
    · rw [eraseComments, scan_outsideComment inside, ih]
    · have outside : mode.inComment = false := by simpa using inside
      rw [scan_erased_cons outside, ← ih, erased_step outside]
      exact scan_pass (fun is_code => absurd is_code not_code) _

/-- The end of a value does not depend on the comments in it. -/
theorem rest?_eraseComments (t : Text) :
    rest? (code.eraseComments t) = (rest? t).map code.eraseComments :=
  scan_eraseComments code 0 t

end OptionValue

namespace HttpOption

open Mode

theorem strip_cons {c : Char} {t : Text} (unmatched : OptionTrigger.rest? name (c :: t) = none) :
    strip (c :: t) = c :: strip t := by
  rw [strip, pieces_cons unmatched]
  rfl

/-- Every beginning of an option starts with this letter. -/
theorem strip_append_of_not_mem {s : Text} (foreign : 'o' ∉ s) (t : Text) :
    strip (s ++ t) = s ++ strip t := by
  induction s with
  | nil => rfl
  | cons c s ih =>
    obtain ⟨other, foreign⟩ := not_or.mp (mt List.mem_cons.mpr foreign)
    have unmatched : OptionTrigger.rest? name (c :: (s ++ t)) = none := by
      simp [OptionTrigger.rest?, Text.after?, other]
    rw [List.cons_append, strip_cons unmatched, ih foreign, List.cons_append]

/-- At the beginning of an option the value decides. -/
theorem strip_trigger {trigger : Text} (written : IsTrigger name trigger) (value : Text) :
    strip (trigger ++ value) = match OptionValue.rest? value with
      | none => trigger ++ strip value
      | some rest => strip rest := by
  rw [strip, pieces_trigger written]
  cases OptionValue.rest? value with
  | none => rfl
  | some rest => rfl

def Piece.begins : Piece → Bool
  | plain _ => false
  | _ => true

/-- Every beginning that the removal comes to stands in code, and not directly behind a slash. What
stands inside an option that is cut out is not looked at. -/
def BeginInCode (t : Text) : Prop :=
  ∀ earlier piece later, pieces t = earlier ++ piece :: later → piece.begins = true →
    code.run (earlier.flatMap Piece.source) = code

/-- The same of some pieces, read from the given mode on. -/
def AllInCode : Mode → List Piece → Prop
  | _, [] => True
  | mode, piece :: later =>
    (piece.begins = true → mode = code) ∧ AllInCode (mode.run piece.source) later

theorem allInCode_iff {mode : Mode} {ps : List Piece} : AllInCode mode ps ↔
    ∀ earlier piece later, ps = earlier ++ piece :: later → piece.begins = true →
      mode.run (earlier.flatMap Piece.source) = code := by
  induction ps generalizing mode with
  | nil =>
    refine iff_of_true trivial fun earlier piece later split _ => ?_
    exact absurd split.symm (by simp)
  | cons first ps ih =>
    rw [AllInCode, ih]
    constructor
    · rintro ⟨here, others⟩ earlier piece later split begins
      cases earlier with
      | nil =>
        injection split with same _
        exact here (same ▸ begins)
      | cons _ earlier =>
        injection split with same split
        subst same
        rw [List.flatMap_cons, run_append]
        exact others earlier piece later split begins
    · intro all
      refine ⟨all [] first ps rfl, fun earlier piece later split begins => ?_⟩
      have run := all (first :: earlier) piece later (by rw [split]; rfl) begins
      rwa [List.flatMap_cons, run_append] at run

theorem beginInCode_iff {t : Text} : BeginInCode t ↔ AllInCode code (pieces t) :=
  allInCode_iff.symm

instance decidableAllInCode (mode : Mode) : (ps : List Piece) → Decidable (AllInCode mode ps)
  | [] => isTrue trivial
  | piece :: later =>
    have := decidableAllInCode (mode.run piece.source) later
    inferInstanceAs (Decidable (_ ∧ _))

instance (t : Text) : Decidable (BeginInCode t) :=
  decidable_of_iff' _ beginInCode_iff

/-- It is enough that every beginning of the text stands in code. -/
theorem beginInCode_of_every {t : Text} (every : ∀ lead trigger after, IsTrigger name trigger →
    t = lead ++ (trigger ++ after) → code.run lead = code) : BeginInCode t := by
  intro earlier piece later split begins
  have whole := flatMap_source_pieces t
  rw [split, List.flatMap_append, List.flatMap_cons] at whole
  have divides := split ▸ divides_pieces t
  cases piece with
  | plain c => cases begins
  | unterminated trigger =>
    exact every _ trigger _ divides.unterminated_behind.1 whole.symm
  | option span =>
    obtain ⟨trigger, value, rfl, written, _⟩ := divides.option_behind
    refine every _ trigger (value ++ later.flatMap Piece.source) written ?_
    rw [← whole, Piece.source, List.append_assoc]

/-- The characters of a beginning neither open nor close a comment. -/
theorem plain_trigger {trigger : Text} (h : IsTrigger name trigger) :
    ∀ c ∈ trigger, c ≠ '/' ∧ c ≠ '*' := by
  intro c member
  rcases h.mem_or_isBlank member with known | blank
  · have plain : ("option".toList ++ '(' :: name ++ [')']).all
        (fun c => c ≠ '/' ∧ c ≠ '*') = true := by decide
    exact of_decide_eq_true (List.all_eq_true.mp plain c known)
  · constructor <;> rintro rfl <;> exact absurd blank (by decide)

theorem eraseComments_trigger {trigger : Text} (h : IsTrigger name trigger) (t : Text) :
    code.eraseComments (trigger ++ t) = trigger ++ code.eraseComments t := by
  rw [eraseComments_append, (eraseComments_of_plain rfl (plain_trigger h)).1, (run_trigger h).1]

/-- Erasing comments uncovers no beginning. -/
theorem unmatched_eraseComments {mode : Mode} (outside : mode.inComment = false) {c : Char}
    {t : Text} (unmatched : ∀ trigger rest, IsTrigger name trigger → trigger ++ rest ≠ c :: t) :
    OptionTrigger.rest? name (mode.eraseComments (c :: t)) = none := by
  by_contra found
  obtain ⟨rest, read⟩ := Option.ne_none_iff_exists'.mp found
  obtain ⟨trigger, written, whole⟩ := OptionTrigger.rest?_eq_some_iff.mp read
  obtain ⟨tail, begins⟩ :=
    append_of_eraseComments_eq outside (plain_trigger written) whole.symm
  exact unmatched trigger tail written begins.symm

/-- By induction on the division: a plain character of a comment leaves at most a line feed or the
end of the comment, with which no option begins. -/
theorem Divides.eraseComments_kept {t : Text} {ps : List Piece} (h : Divides t ps) {mode : Mode}
    (begins : AllInCode mode ps) :
    mode.eraseComments (ps.flatMap Piece.kept) = strip (mode.eraseComments t) := by
  induction h generalizing mode with
  | done => simp [eraseComments, strip, pieces]
  | @plain c r ps unmatched later ih =>
    have rest : (mode.step c).eraseComments (ps.flatMap Piece.kept) =
        strip ((mode.step c).eraseComments r) := ih begins.2
    rw [List.flatMap_cons, Piece.kept, List.singleton_append]
    by_cases inside : mode.inComment = true
    · rw [eraseComments, rest, eraseComments, strip_append_of_not_mem]
      cases mode with
      | lineComment => rw [outsideComment]; split <;> decide
      | blockComment => exact List.not_mem_nil
      | blockStar => rw [outsideComment]; split <;> decide
      | _ => cases inside
    · have outside : mode.inComment = false := by simpa using inside
      have uncovered := unmatched_eraseComments outside unmatched
      rw [eraseComments_cons outside] at uncovered
      rw [eraseComments_cons outside, rest, eraseComments_cons outside, strip_cons uncovered]
  | @unterminated trigger value ps written endless later ih =>
    obtain rfl : mode = code := begins.1 rfl
    have rest := ih begins.2
    rw [Piece.source, (run_trigger written).1] at rest
    rw [List.flatMap_cons, Piece.kept, eraseComments_trigger written, rest,
      eraseComments_trigger written, strip_trigger written, OptionValue.rest?_eraseComments,
      endless]
    rfl
  | @option trigger value rest ps written ends later ih =>
    obtain rfl : mode = code := begins.1 rfl
    have behind := ih begins.2
    rw [Piece.source, (run_option written ends).1] at behind
    rw [List.flatMap_cons, Piece.kept, List.nil_append, behind, eraseComments_trigger written,
      strip_trigger written, OptionValue.rest?_eraseComments, ends]
    rfl

/-- Cutting options out does not look into comments. -/
theorem eraseComments_strip {t : Text} (begins : BeginInCode t) :
    code.eraseComments (strip t) = strip (code.eraseComments t) :=
  (divides_pieces t).eraseComments_kept (beginInCode_iff.mp begins)

/-- Texts that differ in the bodies of their comments only still do so when their options are
cut out. -/
theorem strip_blind_to_comments {s t : Text} (begins : BeginInCode s) (begins' : BeginInCode t)
    (same : code.eraseComments s = code.eraseComments t) :
    code.eraseComments (strip s) = code.eraseComments (strip t) := by
  calc
    code.eraseComments (strip s) = strip (code.eraseComments s) := eraseComments_strip begins
    _ = strip (code.eraseComments t) := by rw [same]
    _ = code.eraseComments (strip t) := (eraseComments_strip begins').symm

/-- A method with braces, quotes, a semicolon and another option in the comments of its option. -/
theorem strip_blind_to_comments_of_method :
    let s := ("rpc A \x7b // it's \x7b\n option (google.api.http) = \x7b /* ; \x7d */ " ++
      "get: \"/\x7bid\" // \" option (google.api.http) = \x7b\n \x7d; /* option */ \x7d").toList
    let t := ("rpc A \x7b //\n option (google.api.http) = \x7b /* */ " ++
      "get: \"/\x7bid\" //\n \x7d; /**/ \x7d").toList
    BeginInCode s ∧ BeginInCode t ∧ code.eraseComments s = code.eraseComments t ∧
      code.eraseComments (strip s) = code.eraseComments (strip t) := by
  intro s t
  have begins : BeginInCode s := by decide +kernel
  have begins' : BeginInCode t := by decide +kernel
  have same : code.eraseComments s = code.eraseComments t := by decide +kernel
  exact ⟨begins, begins', same, strip_blind_to_comments begins begins' same⟩

/-- Strings and comments all end. -/
def Terminated (t : Text) : Prop :=
  (code.run t).isCode = true

instance (t : Text) : Decidable (Terminated t) :=
  inferInstanceAs (Decidable (_ = _))

/-- A method whose option is commented out loses its closing brace. -/
theorem strip_takes_code_behind_comment :
    let s := "rpc A \x7b\n  // option (google.api.http) = \x7b\n\x7d\n".toList
    let t := "rpc A \x7b\n  // \n\x7d\n".toList
    Terminated s ∧ Terminated t ∧ code.eraseComments s = code.eraseComments t ∧
      strip s = "rpc A \x7b\n  // \n".toList ∧ strip t = t ∧
      code.eraseComments (strip s) ≠ code.eraseComments (strip t) := by
  decide +kernel

end HttpOption

end ProtoPrep
