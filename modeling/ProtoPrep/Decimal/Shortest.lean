/-!
# Shortest decimals

The shortest decimal of a positive binary floating-point value has the fewest digits
among the decimals that round to the value, and is the nearest of those; of two
equally near ones it is the one with the even last digit. The selection works on
the significand and exponent of the value in exact integer arithmetic.
-/

namespace ProtoPrep.Decimal

/-- A positive value `significand * 2 ^ exponent`. -/
structure Binary where
  significand : Nat
  exponent : Int
  /-- Whether the next value below is only half as far away as the next value above. -/
  narrowBelow : Bool
deriving DecidableEq, Repr

structure Scaled where
  digits : Nat
  exponent : Int
deriving DecidableEq, Repr

/-- The magnitude of a finite 64-bit floating-point value. -/
def Binary.ofBits (bits : UInt64) : Binary :=
  let exponent := ((bits >>> 52) &&& 0x7FF).toNat
  let fraction := (bits &&& 0xFFFFFFFFFFFFF).toNat
  if exponent = 0 then ⟨fraction, -1074, false⟩
  else ⟨0x10000000000000 + fraction, (exponent : Int) - 1075, fraction = 0 && 1 < exponent⟩

/-- Whether `a * 10 ^ i` is less than, equal to or greater than `b * 2 ^ j`. -/
def compareScaled (a : Nat) (i : Int) (b : Nat) (j : Int) : Ordering :=
  compare (a * Nat.pow 10 i.toNat * Nat.pow 2 (-j).toNat)
    (b * Nat.pow 2 j.toNat * Nat.pow 10 (-i).toNat)

namespace Binary

/-- Whether a decimal rounds to the value: it lies between the midpoints to the two neighbours,
the midpoints included if the significand is even. -/
def roundsFrom (x : Binary) (d : Scaled) : Bool :=
  let low := if x.narrowBelow then 4 * x.significand - 1 else 4 * x.significand - 2
  let high := 4 * x.significand + 2
  let closed := x.significand % 2 = 0
  let belowLow := compareScaled d.digits d.exponent low (x.exponent - 2)
  let aboveHigh := compareScaled d.digits d.exponent high (x.exponent - 2)
  (belowLow = .gt || (closed && belowLow = .eq)) && (aboveHigh = .lt || (closed && aboveHigh = .eq))

def quotient (x : Binary) : Nat × Nat :=
  (x.significand * Nat.pow 2 x.exponent.toNat, Nat.pow 2 (-x.exponent).toNat)

def scale (x : Binary) : Int :=
  let (num, den) := x.quotient
  if den ≤ num then (Nat.toDigits 10 (num / den)).length
  else 1 - ((Nat.toDigits 10 ((den - 1) / num)).length : Int)

/-- The decimal with `places` digits that rounds to the value, if there is one. -/
def atPlaces (x : Binary) (places : Nat) : Option Scaled :=
  let exponent := x.scale - places
  let (num, den) := x.quotient
  let num := num * Nat.pow 10 (-exponent).toNat
  let den := den * Nat.pow 10 exponent.toNat
  let below := num / den
  let twice := compare (2 * num) ((2 * below + 1) * den)
  let (near, far) :=
    if twice = .lt || (twice = .eq && below % 2 = 0) then (below, below + 1) else (below + 1, below)
  ([near, far].map fun digits => (⟨digits, exponent⟩ : Scaled)).find? x.roundsFrom

/-- The shortest decimal of the value. If none of up to 17 digits rounds to it, the value itself. -/
def shortest (x : Binary) : Scaled :=
  match (List.range 17).findSome? fun n => x.atPlaces (n + 1) with
  | some d => d
  | none =>
    ⟨x.significand * Nat.pow 2 x.exponent.toNat * Nat.pow 5 (-x.exponent).toNat, min x.exponent 0⟩

end Binary

/-- The digits without trailing zeros, and the exponent of the last one. -/
def Scaled.trimmed (d : Scaled) : List Char × Int :=
  let digits := Nat.toDigits 10 d.digits
  let kept := (digits.reverse.dropWhile (· = '0')).reverse
  (kept, d.exponent + (digits.length - kept.length : Nat))

end ProtoPrep.Decimal
