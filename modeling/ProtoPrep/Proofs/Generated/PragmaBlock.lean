import ProtoPrep.Generated.Patches
import ProtoPrep.Proofs.Json.Numeral
import ProtoPrep.Proofs.Text.Lines

/-!
# Reading pragma blocks back

A block is read from the front: the banner, one line for each warning, and the first empty
line, behind which the rest begins. A comment may hold everything but a line feed, also a
pragma, a banner or the marks around it, since the code ends at its bracket and the comment
at its line feed. So the blocks that were put in front of a text can be taken off again, the
last one first, and nothing else can be read in their place.
-/

namespace ProtoPrep.PragmaBlock

open Text

def opening : Text :=
  "#pragma warning (disable : ".toList

/-- What stands behind the pragma of a warning. -/
def trailer (comment : Text) : Text :=
  if comment = [] then [] else " // ".toList ++ comment

def body (warnings : List Warning) : Text :=
  warnings.flatMap (fun warning => line warning ++ ['\n']) ++ ['\n']

/-- Put blocks in front of a text, one after another. -/
def prependAll (runs : List (List Warning)) (t : Text) : Text :=
  runs.foldl (fun t warnings => prepend warnings t) t

/-- A comment and the forms in which it stands behind a pragma. An empty one may be left out. -/
inductive Trails : Text → Text → Prop
  | omitted : Trails [] []
  | written (comment : Text) : Trails comment (" // ".toList ++ comment)

/-- A warning and the lines that turn it off. The code may have zeros in front. -/
inductive IsLine : Warning → Text → Prop
  | mk {code : UInt32} {comment digits tail : Text} (solid : Json.IsDigits digits)
      (value : Nat.ofDigitChars 10 digits 0 = code.toNat) (trails : Trails comment tail)
      (unbroken : '\n' ∉ comment) :
      IsLine ⟨code, comment⟩ (opening ++ (digits ++ ')' :: tail))

/-- The lines of warnings at the beginning of a text, up to an empty line, and what follows. -/
inductive IsBody : List Warning → Text → Text → Prop
  | nil (rest : Text) : IsBody [] ('\n' :: rest) rest
  | cons {warning : Warning} {warnings : List Warning} {l t rest : Text}
      (first : IsLine warning l) (later : IsBody warnings t rest) :
      IsBody (warning :: warnings) (l ++ '\n' :: t) rest

/-- The blocks at the beginning of a text, one behind the other, and what follows. -/
inductive Stacked : List (List Warning) → Text → Text → Prop
  | nil (rest : Text) : Stacked [] rest rest
  | cons {warnings : List Warning} {blocks : List (List Warning)} {t between rest : Text}
      (first : IsBody warnings t between) (later : Stacked blocks between rest) :
      Stacked (warnings :: blocks) (banner ++ '\n' :: t) rest

def readCode? (digits : Text) : Option UInt32 :=
  let value := Nat.ofDigitChars 10 digits 0
  if digits ≠ [] ∧ value < UInt32.size then some (UInt32.ofNat value) else none

def readComment? (tail : Text) : Option Text :=
  if tail = [] then some [] else after? " // ".toList tail

def readLine? (l : Text) : Option Warning := do
  let t ← after? opening l
  let code ← readCode? (t.takeWhile Char.isDigit)
  let tail ← after? [')'] (t.dropWhile Char.isDigit)
  let comment ← readComment? tail
  return ⟨code, comment⟩

/-- Read the lines of warnings up to the first empty line. The last line of a text has no line feed,
so it is none of them. -/
def readLines? : List Text → Option (List Warning × List Text)
  | [] :: next :: behind => some ([], next :: behind)
  | (c :: l) :: behind => do
    let warning ← readLine? (c :: l)
    let (warnings, rest) ← readLines? behind
    return (warning :: warnings, rest)
  | _ => none

def read? (t : Text) : Option (List Warning × Text) := do
  let behind ← after? (banner ++ ['\n']) t
  let (warnings, rest) ← readLines? behind.lines
  return (warnings, unlines rest)

/-- Read as many blocks as are asked for. -/
def readMany? : Nat → Text → Option (List (List Warning) × Text)
  | 0, t => some ([], t)
  | n + 1, t => do
    let (warnings, behind) ← read? t
    let (blocks, rest) ← readMany? n behind
    return (warnings :: blocks, rest)

variable {warning : Warning} {warnings : List Warning} {blocks : List (List Warning)}
  {l t rest : Text}

theorem readCode?_eq {code : UInt32} {digits : Text} (nonempty : digits ≠ [])
    (value : Nat.ofDigitChars 10 digits 0 = code.toNat) : readCode? digits = some code := by
  have small : Nat.ofDigitChars 10 digits 0 < UInt32.size := value ▸ code.toNat_lt
  rw [readCode?, if_pos ⟨nonempty, small⟩, value, UInt32.ofNat_toNat]

/-- Behind the bracket stands nothing or the comment with its slashes, so the two forms cannot be
confused. -/
theorem Trails.readComment?_eq {comment tail : Text} (h : Trails comment tail) :
    readComment? tail = some comment := by
  cases h with
  | omitted => rfl
  | written =>
    have written : " // ".toList ++ comment ≠ [] :=
      List.append_ne_nil_of_left_ne_nil (by decide) comment
    rw [readComment?, if_neg written, after?_eq_some_iff]

/-- The digits of the code end at the bracket, and all behind its mark is comment. -/
theorem IsLine.readLine?_eq (h : IsLine warning l) : readLine? l = some warning := by
  cases h with
  | @mk code comment digits tail solid value trails unbroken =>
    have stops : Json.beginsWithDigit (')' :: tail) = false := rfl
    have opened : after? opening (opening ++ (digits ++ ')' :: tail)) =
        some (digits ++ ')' :: tail) := after?_eq_some_iff.mpr rfl
    have closed : after? [')'] (')' :: tail) = some tail := after?_eq_some_iff.mpr rfl
    simp only [readLine?, opened, Option.bind_eq_bind, Option.bind_some,
      Json.takeWhile_digits solid.2 stops, Json.dropWhile_digits solid.2 stops,
      readCode?_eq solid.1 value, closed, trails.readComment?_eq, Option.pure_def]

/-- A line of a warning is one line, because a comment with a line feed has no written form. -/
theorem IsLine.unbroken (h : IsLine warning l) : '\n' ∉ l := by
  cases h with
  | @mk code comment digits tail solid value trails unbroken =>
    have opened : '\n' ∉ opening := by decide
    have numbered : '\n' ∉ digits := fun member => absurd (solid.2 _ member) (by decide)
    have trailed : '\n' ∉ tail := by
      cases trails with
      | omitted => exact List.not_mem_nil
      | written =>
        rw [List.mem_append, not_or]
        exact ⟨by decide, unbroken⟩
    simp [opened, numbered, trailed]

theorem IsLine.exists_cons (h : IsLine warning l) : ∃ c r, l = c :: r := by
  cases h with
  | mk => exact ⟨_, _, rfl⟩

/-- The empty line ends the block, since the line of a warning is never empty. -/
theorem IsBody.readLines?_eq (h : IsBody warnings t rest) :
    readLines? t.lines = some (warnings, rest.lines) := by
  induction h with
  | nil rest =>
    obtain ⟨next, behind, whole⟩ := List.exists_cons_of_ne_nil (lines_ne_nil rest)
    rw [← List.nil_append ('\n' :: rest), lines_append_lineFeed, whole]
    rfl
  | @cons warning warnings l t rest first later ih =>
    obtain ⟨c, r, rfl⟩ := first.exists_cons
    rw [lines_append_lineFeed, lines_of_unbroken first.unbroken, List.singleton_append, readLines?,
      first.readLine?_eq, ih]
    rfl

theorem IsBody.read?_eq (h : IsBody warnings t rest) :
    read? (banner ++ '\n' :: t) = some (warnings, rest) := by
  have titled : after? (banner ++ ['\n']) (banner ++ '\n' :: t) = some t :=
    after?_eq_some_iff.mpr (List.append_cons banner '\n' t).symm
  simp only [read?, titled, h.readLines?_eq, Option.bind_eq_bind, Option.bind_some, unlines_lines,
    Option.pure_def]

/-- The reader finds the blocks in whatever form they are written. -/
theorem Stacked.readMany?_eq (h : Stacked blocks t rest) :
    readMany? blocks.length t = some (blocks, rest) := by
  induction h with
  | nil rest => rfl
  | cons first later ih =>
    simp only [List.length_cons, readMany?, first.read?_eq, ih, Option.bind_eq_bind,
      Option.bind_some, Option.pure_def]

theorem line_eq (warning : Warning) : line warning =
    opening ++ (Nat.toDigits 10 warning.code.toNat ++ ')' :: trailer warning.comment) := by
  unfold line opening trailer
  simp only [List.append_assoc, List.singleton_append]

theorem render_eq (warnings : List Warning) :
    render warnings = banner ++ '\n' :: body warnings := by
  simp [render, body]

theorem body_cons (warning : Warning) (warnings : List Warning) :
    body (warning :: warnings) = line warning ++ '\n' :: body warnings := by
  simp [body]

theorem trails_trailer (comment : Text) : Trails comment (trailer comment) := by
  rw [trailer]
  split
  · rename_i empty
    rw [empty]
    exact .omitted
  · exact .written comment

/-- What is written for a warning is one of the forms that are read. -/
theorem isLine_line (unbroken : '\n' ∉ warning.comment) : IsLine warning (line warning) := by
  rw [line_eq]
  have value : Nat.ofDigitChars 10 (Nat.toDigits 10 warning.code.toNat) 0 = warning.code.toNat :=
    Nat.ofDigitChars_ten_toDigits
  exact .mk (Json.isWhole_toDigits _).1 value (trails_trailer _) unbroken

theorem isBody_body (unbroken : ∀ warning ∈ warnings, '\n' ∉ warning.comment) (rest : Text) :
    IsBody warnings (body warnings ++ rest) rest := by
  induction warnings with
  | nil => exact .nil rest
  | cons warning warnings ih =>
    obtain ⟨here, later⟩ := List.forall_mem_cons.mp unbroken
    rw [body_cons, List.append_assoc, List.cons_append]
    exact .cons (isLine_line here) (ih later)

/-- Blocks that are written one behind the other are read back in this order. -/
theorem stacked_render
    (unbroken : ∀ warnings ∈ blocks, ∀ warning ∈ warnings, '\n' ∉ warning.comment) (rest : Text) :
    Stacked blocks (blocks.flatMap render ++ rest) rest := by
  induction blocks with
  | nil => exact .nil rest
  | cons warnings blocks ih =>
    obtain ⟨here, later⟩ := List.forall_mem_cons.mp unbroken
    rw [List.flatMap_cons, render_eq, List.append_assoc, List.append_assoc, List.cons_append]
    exact .cons (isBody_body here _) (ih later)

/-- The last block that is put in front stands first. -/
theorem prependAll_eq (runs : List (List Warning)) (t : Text) :
    prependAll runs t = runs.reverse.flatMap render ++ t := by
  induction runs generalizing t with
  | nil => rfl
  | cons warnings runs ih =>
    have next : prependAll (warnings :: runs) t = prependAll runs (prepend warnings t) := rfl
    rw [next, ih, prepend, List.reverse_cons, List.flatMap_append, List.flatMap_singleton,
      List.append_assoc]

/-- Blocks put in front of a text stand there in reverse order, and the text stands behind them as
it was. They are read back with all their codes and comments, and in no way otherwise. -/
theorem readMany?_prependAll {runs : List (List Warning)}
    (unbroken : ∀ warnings ∈ runs, ∀ warning ∈ warnings, '\n' ∉ warning.comment) (t : Text) :
    prependAll runs t = runs.reverse.flatMap render ++ t ∧
      readMany? runs.length (prependAll runs t) = some (runs.reverse, t) ∧
      ∀ blocks rest, blocks.length = runs.length → Stacked blocks (prependAll runs t) rest →
        blocks = runs.reverse ∧ rest = t := by
  have stacked : Stacked runs.reverse (prependAll runs t) t := by
    rw [prependAll_eq]
    exact stacked_render (fun warnings member => unbroken warnings (List.mem_reverse.mp member)) t
  have read : readMany? runs.length (prependAll runs t) = some (runs.reverse, t) := by
    rw [← List.length_reverse]
    exact stacked.readMany?_eq
  refine ⟨prependAll_eq runs t, read, ?_⟩
  intro blocks rest many other
  have same := other.readMany?_eq
  rw [many, read] at same
  obtain ⟨blocks_eq, rest_eq⟩ := Prod.mk.inj (Option.some.inj same)
  exact ⟨blocks_eq.symm, rest_eq.symm⟩

/-- Comments that look like the end of a code, a pragma or a banner, an empty block, and a text that
begins like a block. -/
theorem readMany?_prependAll_of_lookalikes :
    let runs : List (List Warning) :=
      [[⟨4996, "x) // #pragma warning (disable : 1)".toList⟩, ⟨7, []⟩], [], [⟨1, banner⟩]]
    let t := banner ++ "\n\n#pragma warning (disable : 2)\n".toList
    (∀ warnings ∈ runs, ∀ warning ∈ warnings, '\n' ∉ warning.comment) ∧
      prependAll runs t = runs.reverse.flatMap render ++ t ∧
      readMany? runs.length (prependAll runs t) = some (runs.reverse, t) ∧
      ∀ blocks rest, blocks.length = runs.length → Stacked blocks (prependAll runs t) rest →
        blocks = runs.reverse ∧ rest = t := by
  intro runs t
  have unbroken : ∀ warnings ∈ runs, ∀ warning ∈ warnings, '\n' ∉ warning.comment := by decide
  exact ⟨unbroken, readMany?_prependAll unbroken t⟩

end ProtoPrep.PragmaBlock
