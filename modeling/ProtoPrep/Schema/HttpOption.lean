import ProtoPrep.Log
import ProtoPrep.Schema.OptionTrigger
import ProtoPrep.Schema.OptionValue

/-!
# HTTP options

A method may carry an option that maps it to HTTP. Each such option is cut out from
its beginning through the end of its value. One whose value has no end stays, with
a warning, and the search goes on behind its beginning.

`pieces` divides a text into what stays and what is cut out; the new text, the
count and the warnings are read off the pieces.
-/

namespace ProtoPrep.HttpOption

def name : Text :=
  "google.api.http".toList

/-- A part of a schema, with respect to its HTTP options. -/
inductive Piece where
  /-- A character outside every option. -/
  | plain (c : Char)
  /-- The beginning of an option whose value has no end. -/
  | unterminated (trigger : Text)
  /-- An option with its value. -/
  | option (span : Text)
deriving DecidableEq

namespace Piece

def source : Piece → Text
  | plain c => [c]
  | unterminated trigger => trigger
  | option span => span

def kept : Piece → Text
  | plain c => [c]
  | unterminated trigger => trigger
  | option _ => []

def isOption : Piece → Bool
  | option _ => true
  | _ => false

end Piece

set_option linter.unusedVariables false in
def pieces (t : Text) : List Piece :=
  match t with
  | [] => []
  | c :: r =>
    match h : OptionTrigger.rest? name (c :: r) with
    | none => .plain c :: pieces r
    | some value =>
      match g : OptionValue.rest? value with
      | none => .unterminated (Text.before (c :: r) value) :: pieces value
      | some rest => .option (Text.before (c :: r) rest) :: pieces rest
termination_by t.length
decreasing_by
  · simp
  · exact (OptionTrigger.rest?_ending h).2
  · exact Nat.lt_trans (OptionValue.rest?_ending g).2 (OptionTrigger.rest?_ending h).2

/-- Nothing is lost between the pieces. -/
theorem flatMap_source_pieces (t : Text) : (pieces t).flatMap Piece.source = t := by
  fun_induction pieces t with
  | case1 => rfl
  | case2 c r h ih => simp [Piece.source, ih]
  | case3 c r value h g ih =>
    simp [Piece.source, ih, Text.before_append (OptionTrigger.rest?_ending h).1]
  | case4 c r value h rest g ih =>
    have ending := (OptionValue.rest?_ending g).1.trans (OptionTrigger.rest?_ending h).1
    simp [Piece.source, ih, Text.before_append ending]

def strip (t : Text) : Text :=
  (pieces t).flatMap Piece.kept

def count (t : Text) : Nat :=
  (pieces t).countP Piece.isOption

/-- Where the options without an end begin, in bytes from the beginning of the text. The first
piece begins at `offset`. -/
def unterminatedAt (offset : Nat) : List Piece → List Nat
  | [] => []
  | piece :: rest =>
    let following := unterminatedAt (offset + piece.source.byteSize) rest
    match piece with
    | .unterminated _ => offset :: following
    | _ => following

def records (t : Text) : List Record :=
  (unterminatedAt 0 (pieces t)).map (fun offset =>
    ⟨.warn, s!"Unterminated google.api.http option at byte {offset}, leaving it in place"⟩) ++
  if count t = 0 then []
  else [⟨.debug, s!"Removed {count t} google.api.http option block(s)"⟩]

end ProtoPrep.HttpOption
