import ProtoPrep.Schema.OptionTrigger
import ProtoPrep.Log

/-!
# The gateway option block

A schema may describe its gateway in a file-level option whose value spans many
lines. The first such block is cut out line by line. A block that never closes,
or that closes on its opening line, is left alone.

A region is a half-open range of lines. The scan looks for the first block opened
on a line of a given kind and closed on a later line, where the count of braces,
begun on the first opening line, is back at zero. An opening line met before the
block closes moves the start of the region and leaves the count as it is.
-/

namespace ProtoPrep

structure Region where
  start : Nat
  stop : Nat
deriving DecidableEq, Repr

def braceBalance (line : Text) : Int :=
  (line.count '{' : Int) - line.count '}'

theorem braceBalance_append (s t : Text) :
    braceBalance (s ++ t) = braceBalance s + braceBalance t := by
  simp [braceBalance]
  omega

namespace Region

def length (region : Region) : Nat :=
  region.stop - region.start

def isEmpty (region : Region) : Bool :=
  region.length = 0

def cutFrom {α : Type} (region : Region) (lines : List α) : List α :=
  lines.take region.start ++ lines.drop region.stop

/-- As `cutFrom`, for a region that begins and ends among the lines. -/
def cutFrom? {α : Type} (region : Region) (lines : List α) : Option (List α) :=
  if region.start ≤ lines.length ∧ region.stop ≤ lines.length then
    some (region.cutFrom lines)
  else none

/-- The scan over the lines from number `index` on. `start` is the last opening line met and
`balance` the count of braces since the first one. -/
def findFrom (opens : Text → Bool) (index : Nat) (start : Option Nat) (balance : Int) :
    List Text → Option Region
  | [] => none
  | line :: rest =>
    match if opens line then some index else start with
    | none => findFrom opens (index + 1) none balance rest
    | some first =>
      let now := balance + braceBalance line
      if now = 0 ∧ first ≠ index then some ⟨first, index + 1⟩
      else findFrom opens (index + 1) (some first) now rest

/-- The first block that begins on an opening line. -/
def find? (opens : Text → Bool) (lines : List Text) : Option Region :=
  findFrom opens 0 none 0 lines

end Region

namespace GatewayOption

def name : Text :=
  "grpc.gateway.protoc_gen_swagger.options.openapiv2_swagger".toList

def opens (line : Text) : Bool :=
  (Pattern.optionTrigger name).occursIn none line

def region? (lines : List Text) : Option Region :=
  Region.find? opens lines

/-- The text without the first block, and the lines that were cut out. -/
def remove (t : Text) : Text × Option Region :=
  match region? t.lines with
  | some region => (Text.unlines (region.cutFrom t.lines), some region)
  | none => (t, none)

def records : Option Region → List Record
  | none => []
  | some region =>
    [⟨.debug, s!"Removing gateway option block at lines {region.start + 1}..{region.stop}"⟩]

end GatewayOption

end ProtoPrep
