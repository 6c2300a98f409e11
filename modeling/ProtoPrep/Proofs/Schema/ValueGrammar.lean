import ProtoPrep.Proofs.Schema.OptionExtents

/-!
# The grammar of option values

A value is made of pieces: string literals, comments, and single characters of code. It
ends with a semicolon or with a body in balanced braces, which takes the semicolons
behind it along. The scan for the end of a value accepts exactly the values.

Whether a slash is a piece depends on the character behind it, and whether the
semicolons are all there are depends on what follows. So every rule speaks of a text
together with the text that stands after it.
-/

namespace ProtoPrep

namespace OptionValue

open Mode

inductive StringRest (quote : Char) : Text → Prop where
  | close : StringRest quote [quote]
  | escape {c : Char} {rest : Text} (later : StringRest quote rest) :
      StringRest quote ('\\' :: c :: rest)
  | plain {c : Char} {rest : Text} (no_escape : c ≠ '\\') (no_close : c ≠ quote)
      (later : StringRest quote rest) : StringRest quote (c :: rest)

/-- A piece, and the text after it. -/
inductive IsPiece : Text → Text → Prop where
  | string {quote : Char} {rest after : Text} (mark : quote = '"' ∨ quote = '\'')
      (closed : StringRest quote rest) : IsPiece (quote :: rest) after
  | lineComment {body after : Text} (first : '\n' ∉ body) :
      IsPiece ('/' :: '/' :: (body ++ ['\n'])) after
  /-- The comment ends with the first `*/` behind its opening. -/
  | blockComment {body after : Text} (first : ¬ ['*', '/'] <:+: body ++ ['*']) :
      IsPiece ('/' :: '*' :: (body ++ ['*', '/'])) after
  | slash {after : Text} (no_line : after.head? ≠ some '/') (no_block : after.head? ≠ some '*') :
      IsPiece ['/'] after
  | plain {c : Char} {after : Text} (ordinary : c ∉ ['{', '}', ';', '"', '\'', '/']) :
      IsPiece [c] after

inductive Pieces : Text → Text → Prop where
  | nil {after : Text} : Pieces [] after
  | cons {piece rest after : Text} (first : IsPiece piece (rest ++ after))
      (later : Pieces rest after) : Pieces (piece ++ rest) after

inductive Body : Text → Text → Prop where
  | nil {after : Text} : Body [] after
  | piece {piece rest after : Text} (first : IsPiece piece (rest ++ after))
      (later : Body rest after) : Body (piece ++ rest) after
  | semicolon {rest after : Text} (later : Body rest after) : Body (';' :: rest) after
  | braces {inner rest after : Text} (nested : Body inner ('}' :: (rest ++ after)))
      (later : Body rest after) : Body ('{' :: (inner ++ '}' :: rest)) after

/-- A value, and the text after it. -/
inductive IsValue : Text → Text → Prop where
  | plain {pieces after : Text} (flat : Pieces pieces (';' :: after)) :
      IsValue (pieces ++ [';']) after
  | braced {pieces body semicolons after : Text}
      (flat : Pieces pieces ('{' :: (body ++ '}' :: (semicolons ++ after))))
      (nested : Body body ('}' :: (semicolons ++ after))) (only : ∀ c ∈ semicolons, c = ';')
      (all : after.head? ≠ some ';') :
      IsValue (pieces ++ '{' :: (body ++ '}' :: semicolons)) after

variable {depth : Nat} {t after : Text}

theorem scan_string {quote : Char} {rest : Text} (mark : quote ≠ '\\')
    (closed : StringRest quote rest) (depth : Nat) (after : Text) :
    scan (string quote) depth (rest ++ after) = scan code depth after := by
  induction closed with
  | close =>
    have step : (string quote).step quote = code := by simp [Mode.step, mark]
    rw [List.singleton_append, scan_outside rfl, step]
  | escape _ ih =>
    rw [List.cons_append, List.cons_append, scan_outside rfl, scan_outside rfl]
    exact ih
  | @plain c rest no_escape no_close _ ih =>
    have step : (string quote).step c = string quote := by simp [Mode.step, no_escape, no_close]
    rw [List.cons_append, scan_outside rfl, step]
    exact ih

theorem scan_lineComment {body : Text} (first : '\n' ∉ body) (depth : Nat) (after : Text) :
    scan lineComment depth (body ++ '\n' :: after) = scan code depth after := by
  induction body with
  | nil => exact scan_outside rfl '\n' after
  | cons c body ih =>
    obtain ⟨other, first⟩ := not_or.mp (mt List.mem_cons.mpr first)
    have step : lineComment.step c = lineComment := by simp [Mode.step, Ne.symm other]
    rw [List.cons_append, scan_outside rfl, step]
    exact ih first

/-- Behind an asterisk the comment may end at once, so both modes go together. -/
theorem scan_blockComment {body : Text} (depth : Nat) (after : Text) :
    (¬ ['*', '/'] <:+: body ++ ['*'] →
      scan blockComment depth (body ++ '*' :: '/' :: after) = scan code depth after) ∧
    (¬ ['*', '/'] <:+: '*' :: (body ++ ['*']) →
      scan blockStar depth (body ++ '*' :: '/' :: after) = scan code depth after) := by
  have close : scan blockStar depth ('/' :: after) = scan code depth after :=
    scan_outside rfl '/' after
  induction body with
  | nil =>
    constructor
    · intro _
      rw [List.nil_append, scan_outside rfl]
      exact close
    · intro _
      rw [List.nil_append, scan_outside rfl]
      exact close
  | cons c body ih =>
    simp only [List.cons_append]
    constructor
    · intro first
      rw [scan_outside rfl]
      by_cases star : c = '*'
      · subst star
        exact ih.2 first
      · have step : blockComment.step c = blockComment := by simp [Mode.step, star]
        rw [step]
        exact ih.1 (mt List.infix_cons first)
    · intro first
      have behind := mt List.infix_cons first
      rw [scan_outside rfl]
      by_cases star : c = '*'
      · subst star
        exact ih.2 behind
      · have no_close : c ≠ '/' := by
          rintro rfl
          exact first ⟨[], body ++ ['*'], rfl⟩
        have step : blockStar.step c = blockComment := by simp [Mode.step, star, no_close]
        rw [step]
        exact ih.1 (mt List.infix_cons behind)

/-- A slash that opens no comment is followed by code like any other. -/
theorem scan_slash (no_line : after.head? ≠ some '/') (no_block : after.head? ≠ some '*')
    (depth : Nat) : scan slash depth after = scan code depth after := by
  cases after with
  | nil => rfl
  | cons c rest =>
    have line : c ≠ '/' := fun same => no_line (by rw [same]; rfl)
    have block : c ≠ '*' := fun same => no_block (by rw [same]; rfl)
    have step : slash.step c = code.step c := by simp [Mode.step, line, block]
    simp only [scan, isCode, step]

/-- A piece leaves the scan in code at the same depth. -/
theorem IsPiece.scan_eq {piece : Text} (h : IsPiece piece after) (depth : Nat) :
    scan .code depth (piece ++ after) = scan .code depth after := by
  cases h with
  | @string quote rest _ mark closed =>
    have indecisive : quote ∉ ['{', '}', ';'] := by
      rcases mark with rfl | rfl <;> decide
    have no_escape : quote ≠ '\\' := by
      rcases mark with rfl | rfl <;> decide
    have step : Mode.code.step quote = .string quote := by
      rcases mark with rfl | rfl <;> rfl
    rw [List.cons_append, scan_indecisive indecisive, step]
    exact scan_string no_escape closed depth after
  | @lineComment body _ first =>
    rw [List.cons_append, List.cons_append, List.append_assoc, scan_indecisive (by decide),
      scan_indecisive (by decide)]
    exact scan_lineComment first depth after
  | @blockComment body _ first =>
    rw [List.cons_append, List.cons_append, List.append_assoc, scan_indecisive (by decide),
      scan_indecisive (by decide)]
    exact (scan_blockComment depth after).1 first
  | slash no_line no_block =>
    rw [List.singleton_append, scan_indecisive (by decide)]
    exact scan_slash no_line no_block depth
  | @plain c _ ordinary =>
    have indecisive : c ∉ ['{', '}', ';'] := fun member => ordinary (by simp_all)
    have step : Mode.code.step c = .code := by
      simp only [List.mem_cons, List.not_mem_nil, or_false, not_or] at ordinary
      simp [Mode.step, Mode.afterCode, ordinary]
    rw [List.singleton_append, scan_indecisive indecisive, step]

/-- By induction on the pieces, each of which is judged with the text that follows it. -/
theorem Pieces.scan_eq {pieces : Text} (h : Pieces pieces after) (depth : Nat) :
    scan code depth (pieces ++ after) = scan code depth after := by
  induction h with
  | nil => rfl
  | cons first _ ih =>
    rw [List.append_assoc, first.scan_eq]
    exact ih

/-- A body is passed over inside the braces around it. -/
theorem Body.scan_eq {body : Text} (h : Body body after) (depth : Nat) :
    scan code (depth + 1) (body ++ after) = scan code (depth + 1) after := by
  induction h generalizing depth with
  | nil => rfl
  | piece first _ ih =>
    rw [List.append_assoc, first.scan_eq]
    exact ih depth
  | semicolon _ ih =>
    rw [List.cons_append, scan_pass (by simp)]
    exact ih depth
  | @braces inner rest after _ _ inside behind =>
    have whole :
        '{' :: (inner ++ '}' :: rest) ++ after = '{' :: (inner ++ '}' :: (rest ++ after)) := by
      simp
    calc scan code (depth + 1) ('{' :: (inner ++ '}' :: rest) ++ after)
        = scan code (depth + 2) (inner ++ '}' :: (rest ++ after)) := by rw [whole]; rfl
      _ = scan code (depth + 2) ('}' :: (rest ++ after)) := inside (depth + 1)
      _ = scan code (depth + 1) (rest ++ after) := rfl
      _ = scan code (depth + 1) after := behind depth

theorem head?_dropWhile_semicolons (t : Text) : (t.dropWhile (· = ';')).head? ≠ some ';' := by
  intro first
  have stopped := List.head?_dropWhile_not (· = ';') t
  rw [first] at stopped
  simp at stopped

theorem dropWhile_semicolons {semicolons : Text} (only : ∀ c ∈ semicolons, c = ';')
    (all : after.head? ≠ some ';') : (semicolons ++ after).dropWhile (· = ';') = after := by
  rw [List.dropWhile_append_of_pos (by simpa using only)]
  cases after with
  | nil => rfl
  | cons c rest =>
    have other : c ≠ ';' := fun same => all (by rw [same]; rfl)
    simp [other]

/-- Every value of the grammar is passed over as a whole. -/
theorem IsValue.rest?_eq {span : Text} (h : IsValue span after) :
    rest? (span ++ after) = some after := by
  cases h with
  | @plain pieces _ flat =>
    rw [rest?, List.append_assoc, List.singleton_append, flat.scan_eq]
    rfl
  | @braced pieces body semicolons _ flat nested only all =>
    have whole : pieces ++ '{' :: (body ++ '}' :: semicolons) ++ after =
        pieces ++ '{' :: (body ++ '}' :: (semicolons ++ after)) := by simp
    calc rest? (pieces ++ '{' :: (body ++ '}' :: semicolons) ++ after)
        = scan code 0 ('{' :: (body ++ '}' :: (semicolons ++ after))) := by
          rw [whole]
          exact flat.scan_eq 0
      _ = scan code 1 (body ++ '}' :: (semicolons ++ after)) := rfl
      _ = scan code 1 ('}' :: (semicolons ++ after)) := nested.scan_eq 0
      _ = some ((semicolons ++ after).dropWhile (· = ';')) := rfl
      _ = some after := by rw [dropWhile_semicolons only all]

variable {stop : Text}

theorem exists_stringRest {quote : Char} :
    ∀ {t : Text}, scan (.string quote) depth t = some stop →
      ∃ rest after, t = rest ++ after ∧ StringRest quote rest
  | [], h => by cases h
  | c :: t, h => by
    rw [scan_outside rfl] at h
    by_cases escape : c = '\\'
    · subst escape
      have step : (string quote).step '\\' = Mode.escape quote := by simp [Mode.step]
      rw [step] at h
      cases t with
      | nil => cases h
      | cons d t =>
        rw [scan_outside rfl] at h
        obtain ⟨rest, after, rfl, closed⟩ := exists_stringRest h
        exact ⟨_, after, rfl, .escape closed⟩
    · by_cases close : c = quote
      · subst close
        exact ⟨[c], t, rfl, .close⟩
      · have step : (string quote).step c = string quote := by simp [Mode.step, escape, close]
        rw [step] at h
        obtain ⟨rest, after, rfl, closed⟩ := exists_stringRest h
        exact ⟨_, after, rfl, .plain escape close closed⟩

theorem mem_of_scan_lineComment (h : scan lineComment depth t = some stop) : '\n' ∈ t := by
  induction t with
  | nil => cases h
  | cons c t ih =>
    by_cases feed : c = '\n'
    · exact feed ▸ List.mem_cons_self
    · have step : lineComment.step c = lineComment := by simp [Mode.step, feed]
      rw [scan_outside rfl, step] at h
      exact List.mem_cons_of_mem c (ih h)

/-- The end of a comment, from within it and from behind an asterisk. -/
theorem exists_commentEnd :
    (scan blockComment depth t = some stop →
      ∃ body after, t = body ++ '*' :: '/' :: after ∧ ¬ ['*', '/'] <:+: body ++ ['*']) ∧
    (scan blockStar depth t = some stop →
      (∃ after, t = '/' :: after) ∨
      ∃ body after, t = body ++ '*' :: '/' :: after ∧
        ¬ ['*', '/'] <:+: '*' :: (body ++ ['*'])) := by
  induction t with
  | nil => exact ⟨nofun, nofun⟩
  | cons c t ih =>
    obtain ⟨within, starred⟩ := ih
    constructor
    · intro h
      rw [scan_outside rfl] at h
      by_cases star : c = '*'
      · subst star
        rcases starred h with ⟨after, rfl⟩ | ⟨body, after, rfl, first⟩
        · exact ⟨[], after, rfl, by simp [List.infix_cons_iff]⟩
        · exact ⟨'*' :: body, after, rfl, first⟩
      · have step : blockComment.step c = blockComment := by simp [Mode.step, star]
        rw [step] at h
        obtain ⟨body, after, rfl, first⟩ := within h
        refine ⟨c :: body, after, rfl, ?_⟩
        simpa [List.infix_cons_iff, star, Ne.symm star] using first
    · intro h
      rw [scan_outside rfl] at h
      by_cases close : c = '/'
      · exact Or.inl ⟨t, by rw [close]⟩
      right
      by_cases star : c = '*'
      · subst star
        rcases starred h with ⟨after, rfl⟩ | ⟨body, after, rfl, first⟩
        · exact ⟨[], after, rfl, by simp [List.infix_cons_iff]⟩
        · refine ⟨'*' :: body, after, rfl, ?_⟩
          simpa [List.infix_cons_iff] using first
      · have step : blockStar.step c = blockComment := by simp [Mode.step, star, close]
        rw [step] at h
        obtain ⟨body, after, rfl, first⟩ := within h
        refine ⟨c :: body, after, rfl, ?_⟩
        simpa [List.infix_cons_iff, star, close, Ne.symm star, Ne.symm close] using first

/-- Where the scan goes on in code there is a piece, or a character that decides. -/
theorem exists_piece {c : Char} (h : scan code depth (c :: t) = some stop)
    (indecisive : c ∉ ['{', '}', ';']) :
    ∃ piece after, c :: t = piece ++ after ∧ IsPiece piece after := by
  rw [scan_indecisive indecisive] at h
  by_cases mark : c = '"' ∨ c = '\''
  · have step : code.step c = string c := by
      rcases mark with rfl | rfl <;> rfl
    rw [step] at h
    obtain ⟨rest, after, rfl, closed⟩ := exists_stringRest h
    exact ⟨c :: rest, after, rfl, .string mark closed⟩
  by_cases slash : c = '/'
  · subst slash
    by_cases line : t.head? = some '/'
    · obtain ⟨t, rfl⟩ := List.head?_eq_some_iff.mp line
      rw [scan_indecisive (by decide)] at h
      obtain ⟨body, after, rfl, first⟩ := List.eq_append_cons_of_mem (mem_of_scan_lineComment h)
      exact ⟨'/' :: '/' :: (body ++ ['\n']), after, by simp, .lineComment first⟩
    by_cases block : t.head? = some '*'
    · obtain ⟨t, rfl⟩ := List.head?_eq_some_iff.mp block
      rw [scan_indecisive (by decide)] at h
      obtain ⟨body, after, rfl, first⟩ := exists_commentEnd.1 h
      exact ⟨'/' :: '*' :: (body ++ ['*', '/']), after, by simp, .blockComment first⟩
    · exact ⟨['/'], t, rfl, .slash line block⟩
  · exact ⟨[c], t, rfl, .plain (by simp_all)⟩

theorem IsPiece.length_pos {piece : Text} (h : IsPiece piece after) : 0 < piece.length := by
  cases h <;> simp

/-- Behind the piece the scan goes on with less text. -/
theorem exists_piece_scan {c : Char} (h : scan code depth (c :: t) = some stop)
    (indecisive : c ∉ ['{', '}', ';']) :
    ∃ piece after, c :: t = piece ++ after ∧ IsPiece piece after ∧
      after.length < t.length + 1 ∧ scan code depth after = some stop := by
  obtain ⟨piece, after, whole, first⟩ := exists_piece h indecisive
  have long := first.length_pos
  have length := congrArg List.length whole
  rw [List.length_cons, List.length_append] at length
  rw [whole, first.scan_eq] at h
  exact ⟨piece, after, whole, first, by omega, h⟩

/-- What leads out of as many braces, and the text after it. -/
inductive LeadsOut : Nat → Text → Text → Prop where
  | semicolons {semicolons after : Text} (only : ∀ c ∈ semicolons, c = ';')
      (all : after.head? ≠ some ';') : LeadsOut 0 semicolons after
  | level {depth : Nat} {body rest after : Text} (nested : Body body ('}' :: (rest ++ after)))
      (later : LeadsOut depth rest after) : LeadsOut (depth + 1) (body ++ '}' :: rest) after

namespace LeadsOut

variable {span : Text}

theorem piece {piece : Text} (h : LeadsOut (depth + 1) span after)
    (first : IsPiece piece (span ++ after)) : LeadsOut (depth + 1) (piece ++ span) after := by
  cases h with
  | @level _ body rest _ nested later =>
    rw [← List.append_assoc]
    exact .level (.piece (by simpa using first) nested) later

theorem semicolon (h : LeadsOut (depth + 1) span after) :
    LeadsOut (depth + 1) (';' :: span) after := by
  cases h with
  | @level _ body rest _ nested later => exact .level (.semicolon nested) later

theorem opening (h : LeadsOut (depth + 2) span after) :
    LeadsOut (depth + 1) ('{' :: span) after := by
  cases h with
  | @level _ inner _ _ nested later =>
    cases later with
    | @level _ body rest _ behind later =>
      have whole : '{' :: (inner ++ '}' :: (body ++ '}' :: rest)) =
          '{' :: (inner ++ '}' :: body) ++ '}' :: rest := by simp
      rw [whole]
      exact .level (.braces (by simpa using nested) behind) later

theorem closing (h : LeadsOut depth span after) : LeadsOut (depth + 1) ('}' :: span) after :=
  .level .nil h

/-- What a scan within braces passes leads out of them. -/
theorem of_scan (h : scan code (depth + 1) t = some stop) :
    ∃ span, t = span ++ stop ∧ LeadsOut (depth + 1) span stop := by
  induction size : t.length using Nat.strongRecOn generalizing t depth with
  | ind n ih =>
    cases t with
    | nil => cases h
    | cons c t =>
      rw [List.length_cons] at size
      by_cases indecisive : c ∉ ['{', '}', ';']
      · obtain ⟨piece, after, whole, first, shorter, later⟩ := exists_piece_scan h indecisive
        obtain ⟨span, rfl, out⟩ := ih after.length (by omega) later rfl
        exact ⟨piece ++ span, by rw [whole, List.append_assoc], out.piece first⟩
      · simp only [List.mem_cons, List.not_mem_nil, or_false, not_not] at indecisive
        rcases indecisive with rfl | rfl | rfl
        · have deeper : scan code (depth + 2) t = some stop := h
          obtain ⟨span, rfl, out⟩ := ih t.length (by omega) deeper rfl
          exact ⟨'{' :: span, rfl, out.opening⟩
        · cases depth with
          | zero =>
            have rest : t.dropWhile (· = ';') = stop := Option.some.inj h
            refine ⟨'}' :: t.takeWhile (· = ';'), ?_, .closing (.semicolons ?_ ?_)⟩
            · rw [List.cons_append, ← rest, List.takeWhile_append_dropWhile]
            · intro c member
              simpa using List.mem_takeWhile_imp member
            · rw [← rest]
              exact head?_dropWhile_semicolons t
          | succ depth =>
            have outer : scan code (depth + 1) t = some stop := h
            obtain ⟨span, rfl, out⟩ := ih t.length (by omega) outer rfl
            exact ⟨'}' :: span, rfl, out.closing⟩
        · have same : scan code (depth + 1) t = some stop := by
            rw [scan_pass (by simp)] at h
            exact h
          obtain ⟨span, rfl, out⟩ := ih t.length (by omega) same rfl
          exact ⟨';' :: span, rfl, out.semicolon⟩

end LeadsOut

theorem IsValue.piece {piece span : Text} (h : IsValue span after)
    (first : IsPiece piece (span ++ after)) : IsValue (piece ++ span) after := by
  cases h with
  | @plain pieces _ flat =>
    rw [← List.append_assoc]
    exact .plain (.cons (by simpa using first) flat)
  | @braced pieces body semicolons _ flat nested only all =>
    rw [← List.append_assoc]
    exact .braced (.cons (by simpa using first) flat) nested only all

/-- What the scan passes over is a value of the grammar, by induction on the length of the text. -/
theorem exists_value (h : rest? t = some stop) : ∃ span, t = span ++ stop ∧ IsValue span stop := by
  rw [rest?] at h
  induction size : t.length using Nat.strongRecOn generalizing t with
  | ind n ih =>
    cases t with
    | nil => cases h
    | cons c t =>
      rw [List.length_cons] at size
      by_cases indecisive : c ∉ ['{', '}', ';']
      · obtain ⟨piece, after, whole, first, shorter, later⟩ := exists_piece_scan h indecisive
        obtain ⟨span, rfl, value⟩ := ih after.length (by omega) later rfl
        exact ⟨piece ++ span, by rw [whole, List.append_assoc], value.piece first⟩
      · simp only [List.mem_cons, List.not_mem_nil, or_false, not_not] at indecisive
        rcases indecisive with rfl | rfl | rfl
        · have inside : scan code 1 t = some stop := h
          obtain ⟨span, rfl, out⟩ := LeadsOut.of_scan inside
          cases out with
          | @level _ body rest _ nested later =>
            cases later with
            | semicolons only all => exact ⟨_, rfl, .braced .nil nested only all⟩
        · cases h
        · cases h
          exact ⟨[';'], rfl, .plain .nil⟩

/-- The scan for the end of a value accepts the values, and what it gives is what follows. -/
theorem rest?_eq_some_iff :
    rest? t = some after ↔ ∃ span, t = span ++ after ∧ IsValue span after := by
  constructor
  · exact exists_value
  · rintro ⟨span, rfl, value⟩
    exact value.rest?_eq

end OptionValue

namespace HttpOption

open OptionValue

variable {t : Text} {start stop : Nat}

/-- The bytes from `start` up to `stop` are a value of the text. -/
def EndsAt (t : Text) (start stop : Nat) : Prop :=
  ∃ lead span after, t = lead ++ (span ++ after) ∧ start = lead.byteSize ∧
    stop = (lead ++ span).byteSize ∧ IsValue span after

theorem endsAt_of_valueEnd? (h : valueEnd? t start = some (some stop)) : EndsAt t start stop := by
  obtain ⟨value, behind, ends⟩ := Option.map_eq_some_iff.mp h
  obtain ⟨after, read, rfl⟩ := Option.map_eq_some_iff.mp ends
  obtain ⟨lead, rfl, rfl⟩ := Text.exists_lead_of_fromByte? behind
  obtain ⟨span, rfl, written⟩ := rest?_eq_some_iff.mp read
  refine ⟨lead, span, after, rfl, rfl, ?_, written⟩
  simp only [Text.byteSize_append]
  omega

theorem EndsAt.valueEnd?_eq (h : EndsAt t start stop) : valueEnd? t start = some (some stop) := by
  obtain ⟨lead, span, after, rfl, rfl, rfl, written⟩ := h
  have bytes : (lead ++ (span ++ after)).byteSize - after.byteSize = (lead ++ span).byteSize := by
    simp only [Text.byteSize_append]
    omega
  rw [valueEnd?_append, written.rest?_eq, Option.map_some, bytes]

/-- From every place at which a text can be cut, the scan ends exactly where a value does: at one
place at most, and nowhere if no value begins there. -/
theorem valueEnd?_exact (t : Text) (start : Nat) :
    (∀ stop, valueEnd? t start = some (some stop) ↔ EndsAt t start stop) ∧
    (∀ stop stop', EndsAt t start stop → EndsAt t start stop' → stop = stop') ∧
    (valueEnd? t start = some none ↔
      (∃ value, t.fromByte? start = some value) ∧ ∀ stop, ¬ EndsAt t start stop) := by
  refine ⟨fun stop => ⟨endsAt_of_valueEnd?, EndsAt.valueEnd?_eq⟩, ?_, ?_⟩
  · intro stop stop' first second
    have same := first.valueEnd?_eq.symm.trans second.valueEnd?_eq
    cases same
    rfl
  constructor
  · intro endless
    obtain ⟨value, behind, _⟩ := Option.map_eq_some_iff.mp endless
    refine ⟨⟨value, behind⟩, fun stop ends => ?_⟩
    rw [ends.valueEnd?_eq] at endless
    cases endless
  · rintro ⟨⟨value, behind⟩, endless⟩
    rw [valueEnd?, behind, Option.map_some]
    cases read : rest? value with
    | none => rfl
    | some after =>
      have ends : valueEnd? t start = some (some (t.byteSize - after.byteSize)) := by
        rw [valueEnd?, behind, Option.map_some, read]
        rfl
      exact absurd (endsAt_of_valueEnd? ends) (endless _)

/-- A slash behind the opening asterisk does not close the comment, and what is in a comment or a
string literal does not count. -/
example : rest? "= /*/ \x7b */ '\\'\x7d' ;x".toList = some ['x'] := by decide

/-- A line comment without a line feed has no end. -/
example : rest? "= 1 // ;".toList = none := by decide

end HttpOption

end ProtoPrep
