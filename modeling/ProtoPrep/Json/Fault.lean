import ProtoPrep.Json.Number
import ProtoPrep.Text.Quoted

/-!
# What can be wrong with a JSON text

A fault is a breach of the grammar, or a value that is not of the wanted form. A
reader stops at the first fault and tells where: before the text that is left, or a
few bytes further when the fault lies in the bytes just looked at. A place is a line
and the number of bytes of that line up to it.
-/

namespace ProtoPrep.Json

inductive Shape where
  | null
  | boolean (b : Bool)
  | number (n : Number)
  | string (t : Text)
  | sequence
  | map

def Shape.describe : Shape → String
  | null => "null"
  | boolean b => "boolean `" ++ (if b then "true" else "false") ++ "`"
  | number (.natural n) => s!"integer `{n}`"
  | number (.negative n) => s!"integer `-{n}`"
  | number (.float x) => "floating point `" ++ String.ofList (floatText x) ++ "`"
  | string t => "string " ++ t.quoted
  | sequence => "sequence"
  | map => "map"

inductive Fault where
  | endInValue
  | endInList
  | endInObject
  | endInString
  | valueExpected
  | identExpected
  | colonExpected
  | commaOrBracketExpected
  | commaOrBraceExpected
  | keyExpected
  | trailingComma
  | trailingCharacters
  | invalidNumber
  | numberOutOfRange
  | invalidEscape
  | hexEscapeEnds
  | loneSurrogate
  | controlCharacter
  | wrongType (got : Shape) (want : String)
  | wrongValue (got : Shape) (want : String)
  | unknownVariant (name : Text) (known : List String)
  | duplicateField (name : String)
  | missingField (name : String)
  | wrongLength (length : Nat) (want : String)

def Fault.message : Fault → String
  | endInValue => "EOF while parsing a value"
  | endInList => "EOF while parsing a list"
  | endInObject => "EOF while parsing an object"
  | endInString => "EOF while parsing a string"
  | valueExpected => "expected value"
  | identExpected => "expected ident"
  | colonExpected => "expected `:`"
  | commaOrBracketExpected => "expected `,` or `]`"
  | commaOrBraceExpected => "expected `,` or `\x7d`"
  | keyExpected => "key must be a string"
  | trailingComma => "trailing comma"
  | trailingCharacters => "trailing characters"
  | invalidNumber => "invalid number"
  | numberOutOfRange => "number out of range"
  | invalidEscape => "invalid escape"
  | hexEscapeEnds => "unexpected end of hex escape"
  | loneSurrogate => "lone leading surrogate in hex escape"
  | controlCharacter => "control character (\\u0000-\\u001F) found while parsing a string"
  | wrongType got want => "invalid type: " ++ got.describe ++ ", expected " ++ want
  | wrongValue got want => "invalid value: " ++ got.describe ++ ", expected " ++ want
  | unknownVariant name known =>
    "unknown variant `" ++ String.ofList name ++ "`, expected one of " ++
      ", ".intercalate (known.map fun n => "`" ++ n ++ "`")
  | duplicateField name => "duplicate field `" ++ name ++ "`"
  | missingField name => "missing field `" ++ name ++ "`"
  | wrongLength length want => s!"invalid length {length}, expected " ++ want

/-- Where reading stopped, and why. -/
structure Stop where
  fault : Fault
  /-- The text that was not read. -/
  rest : Text
  /-- How many bytes of that text were looked at. -/
  ahead : Nat

/-- A place in a text. Lines count from one, bytes from zero. -/
structure Place where
  line : Nat
  column : Nat
deriving DecidableEq

/-- The place some bytes further in a text. At the end of the text it stays. -/
def Place.advance (place : Place) : Nat → Text → Place
  | 0, _ => place
  | _, [] => place
  | bytes + 1, c :: rest =>
    if c = '\n' then advance ⟨place.line + 1, 0⟩ bytes rest
    else if bytes + 1 < c.utf8Size then ⟨place.line, place.column + (bytes + 1)⟩
    else advance ⟨place.line, place.column + c.utf8Size⟩ (bytes + 1 - c.utf8Size) rest

namespace Stop

/-- The place of a stop in the whole text. -/
def place (whole : Text) (stop : Stop) : Place :=
  Place.advance ⟨1, 0⟩ (whole.byteSize - stop.rest.byteSize + stop.ahead) whole

def message (whole : Text) (stop : Stop) : String :=
  let place := stop.place whole
  stop.fault.message ++ s!" at line {place.line} column {place.column}"

end Stop

end ProtoPrep.Json
