import ProtoPrep.Text.Basic

/-!
# Where the value of an option ends

Read from left to right, each character of a schema belongs to code, to a string
literal or to a comment. The mode says which, for the character that comes next.
A string closes at the quote that opened it unless a backslash stands before it,
and may run over line ends. A line comment ends with its line feed. A block
comment ends at the first `*/` that begins after its opening.

A value in braces ends at its balanced closing brace, and the semicolons directly
after the brace go with it. A value without braces ends at its semicolon. Braces
and semicolons inside string literals and comments do not count. A value that is
never closed, or that closes a brace before it opens one, has no end.
-/

namespace ProtoPrep

/-- What the next character belongs to. -/
inductive Mode where
  | code
  /-- Code, after a slash that may open a comment. -/
  | slash
  | string (quote : Char)
  /-- A string literal, after a backslash. -/
  | escape (quote : Char)
  | lineComment
  | blockComment
  /-- A block comment, after an asterisk that may begin its end. -/
  | blockStar
deriving DecidableEq, Repr

namespace Mode

/-- The mode after a character of code that opens no comment. -/
def afterCode (c : Char) : Mode :=
  if c = '/' then slash else if c = '"' ∨ c = '\'' then string c else code

def step : Mode → Char → Mode
  | code, c => afterCode c
  | slash, c => if c = '/' then lineComment else if c = '*' then blockComment else afterCode c
  | string q, c => if c = '\\' then escape q else if c = q then code else string q
  | escape q, _ => string q
  | lineComment, c => if c = '\n' then code else lineComment
  | blockComment, c => if c = '*' then blockStar else blockComment
  | blockStar, c =>
    if c = '/' then code else if c = '*' then blockStar else blockComment

def run (mode : Mode) (t : List Char) : Mode :=
  t.foldl step mode

/-- Whether a brace or a semicolon in this mode is code. -/
def isCode : Mode → Bool
  | code => true
  | slash => true
  | _ => false

theorem run_append (mode : Mode) (s t : List Char) : mode.run (s ++ t) = (mode.run s).run t :=
  List.foldl_append

end Mode

namespace OptionValue

/-- The scan for the end, inside `depth` braces. -/
def scan : Mode → Nat → Text → Option Text
  | _, _, [] => none
  | mode, depth, c :: rest =>
    if mode.isCode then
      match c, depth with
      | '{', d => scan (mode.step c) (d + 1) rest
      | '}', 0 => none
      | '}', 1 => some (rest.dropWhile (· = ';'))
      | '}', d + 2 => scan (mode.step c) (d + 1) rest
      | ';', 0 => some rest
      | _, d => scan (mode.step c) d rest
    else scan (mode.step c) depth rest

def rest? (t : Text) : Option Text :=
  scan .code 0 t

theorem scan_ending {mode : Mode} {depth : Nat} {t rest : Text}
    (h : scan mode depth t = some rest) : rest <:+ t ∧ rest.length < t.length := by
  fun_induction scan mode depth t
  all_goals simp_all
  all_goals grind [List.suffix_cons, List.IsSuffix.trans, List.dropWhile_suffix,
    List.IsSuffix.length_le]

theorem rest?_ending {t rest : Text} (h : rest? t = some rest) :
    rest <:+ t ∧ rest.length < t.length :=
  scan_ending h

end OptionValue

end ProtoPrep
