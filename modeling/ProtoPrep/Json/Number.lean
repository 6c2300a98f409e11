import ProtoPrep.Decimal.Shortest
import ProtoPrep.Text.Basic

/-!
# Numbers

A numeral is a number as it is written. Its value is an integer if it has neither a
fraction nor an exponent and fits 64 bits with its sign; any other value is a
floating-point number, made from the digits that fit 64 bits and a power of ten.
-/

namespace ProtoPrep.Json

structure Numeral where
  negative : Bool
  whole : Text
  fraction : Option Text
  /-- The sign and the digits of the exponent; the sign is true if it is a minus. -/
  exponent : Option (Bool × Text)
deriving DecidableEq

inductive Number where
  | natural (n : Nat)
  /-- The integer `-n`. -/
  | negative (n : Nat)
  | float (x : Float)

def digitValue (c : Char) : Nat :=
  c.toNat - '0'.toNat

/-- Add digits to a number as long as it stays below a bound. The second part is the number of
digits left over. -/
def accumulate (bound : Nat) : Nat → Text → Nat × Nat
  | n, [] => (n, 0)
  | n, d :: ds =>
    let next := 10 * n + digitValue d
    if next < bound then accumulate bound next ds else (n, ds.length + 1)

def powerOfTen (n : Nat) : Float :=
  Float.ofScientific 1 false n

/-- Multiply by a power of ten, in steps that floating-point numbers can hold. There is no result
if it would be infinite. -/
def scaleFloat (x : Float) (exponent : Int) : Option Float :=
  if exponent.natAbs ≤ 308 then
    if 0 ≤ exponent then
      let y := x * powerOfTen exponent.toNat
      if y.isInf then none else some y
    else some (x / powerOfTen exponent.natAbs)
  else if x == 0 then some x
  else if 0 ≤ exponent then none
  else scaleFloat (x / powerOfTen 308) (exponent + 308)
termination_by exponent.natAbs
decreasing_by omega

namespace Numeral

/-- The value of a numeral. If it is out of range, the number of digits of the exponent that need
not be read to know it. -/
def value (numeral : Numeral) : Except Nat Number :=
  let (significand, dropped) := accumulate UInt64.size 0 numeral.whole
  let signed (x : Float) : Number := .float (if numeral.negative then -x else x)
  match numeral.fraction, numeral.exponent, dropped with
  | none, none, 0 =>
    if !numeral.negative then .ok (.natural significand)
    else if 0 < significand && significand ≤ UInt64.size / 2 then .ok (.negative significand)
    else .ok (signed (Float.ofNat significand))
  | fraction, exponent, _ =>
    let digits := fraction.getD []
    let (significand, leftOver) := accumulate UInt64.size significand digits
    let start : Int := (dropped : Int) - (digits.length - leftOver : Nat)
    let (minus, places) := exponent.getD (false, [])
    let (power, unread) := accumulate (UInt32.size / 2) 0 places
    if unread ≠ 0 then
      if significand ≠ 0 && !minus then .error (unread - 1) else .ok (signed 0)
    else
      let shift := if minus then start - power else start + power
      match scaleFloat (Float.ofNat significand) shift with
      | some x => .ok (signed x)
      | none => .error 0

end Numeral

/-- The shortest text of a finite floating-point number. Numbers from 0.00001 up to, not including,
10000000000000000 are written out with at least one place after the point; all others have a signed
exponent. -/
def floatText (x : Float) : Text :=
  let sign : Text := if x.toBits >>> 63 = 1 then ['-'] else []
  let binary := Decimal.Binary.ofBits (x.toBits &&& 0x7FFFFFFFFFFFFFFF)
  if binary.significand = 0 then sign ++ "0.0".toList
  else
    let (digits, last) := binary.shortest.trimmed
    let point : Int := digits.length + last
    let zeros (n : Int) : Text := List.replicate n.toNat '0'
    let body : Text :=
      if 0 < point && point ≤ 16 then
        if 0 ≤ last then digits ++ zeros last ++ ".0".toList
        else digits.take point.toNat ++ ['.'] ++ digits.drop point.toNat
      else if -5 < point && point ≤ 0 then "0.".toList ++ zeros (-point) ++ digits
      else
        let exponent := point - 1
        let mantissa := match digits with
          | d :: e :: ds => d :: '.' :: e :: ds
          | ds => ds
        mantissa ++ ['e', if exponent < 0 then '-' else '+'] ++ Nat.toDigits 10 exponent.natAbs
    sign ++ body

end ProtoPrep.Json
