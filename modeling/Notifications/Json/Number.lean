import Notifications.Decimal.Shortest
/-!
Numbers as they are written. A number without fraction and exponent that fits 64 bits is an integer;
every other one is a double.
-/
namespace Notifications.Json

structure Exponent where
  negative : Bool
  digits : List Char
  deriving DecidableEq, Repr

/-- The parts of a number; the fraction is empty when there is no point. -/
structure Number where
  negative : Bool
  whole : List Char
  fraction : List Char
  exponent : Option Exponent
  deriving DecidableEq, Repr

inductive Amount
  | integer (n : Int)
  | float (x : Float)

namespace Number

def ofInt (n : Int) : Number := ⟨n < 0, Nat.toDigits 10 n.natAbs, [], none⟩

/-- The digits read so far as a 64-bit integer, and the power of ten it is to be scaled by. -/
structure Reading where
  significand : Nat
  scale : Int

/-- Digits before the point that no longer fit only move the scale. -/
def readWhole : List Char → Reading → Reading
  | [], r => r
  | c :: cs, r =>
    let n := r.significand * 10 + (c.toNat - '0'.toNat)
    if n < UInt64.size then readWhole cs ⟨n, r.scale⟩
    else ⟨r.significand, r.scale + (cs.length + 1)⟩

/-- Digits after the point that no longer fit are dropped. -/
def readFraction : List Char → Reading → Reading
  | [], r => r
  | c :: cs, r =>
    let n := r.significand * 10 + (c.toNat - '0'.toNat)
    if n < UInt64.size then readFraction cs ⟨n, r.scale - 1⟩ else r

/-- Divides by `10^308` until nothing is left of `x`. -/
def shrink (x : Float) : Nat → Float
  | 0 => x
  | k + 1 => if x == 0 then x else shrink (x / 1e308) k

def powerOfTen (n : Nat) : Float := Float.ofScientific 1 false n

/-- `significand · 10^scale`, unless it is too large for a double. -/
def scaled (r : Reading) : Option Float :=
  let x := r.significand.toUInt64.toFloat
  if 0 ≤ r.scale then
    if r.scale ≤ 308 then
      let y := x * powerOfTen r.scale.toNat
      if y.isInf then none else some y
    else if x == 0 then some x else none
  else
    let n := (-r.scale).toNat
    let steps := (n - 1) / 308
    some (shrink x steps / powerOfTen (n - 308 * steps))

def exponentLimit : Nat := 1 <<< 31

/-- The magnitude of a number as a double, unless it is too large for one. -/
def magnitude (n : Number) : Option Float :=
  let r := readFraction n.fraction (readWhole n.whole ⟨0, 0⟩)
  match n.exponent with
  | none => scaled r
  | some e =>
    let k := Nat.ofDigitChars 10 e.digits 0
    if k < exponentLimit then
      scaled ⟨r.significand, if e.negative then r.scale - k else r.scale + k⟩
    else if e.negative || r.significand == 0 then some 0
    else none

/-- The integer a number is. The literal `-0` is none. -/
def integer? (n : Number) : Option Int :=
  if n.fraction.isEmpty && n.exponent.isNone then
    let k := Nat.ofDigitChars 10 n.whole 0
    if n.negative then
      if k ≠ 0 ∧ Int64.minValue.toInt ≤ -k then some (-k) else none
    else if k < UInt64.size then some k else none
  else none

/-- The value of a number; nothing if it is too large. -/
def amount? (n : Number) : Option Amount :=
  match n.integer? with
  | some k => some (.integer k)
  | none => n.magnitude.map fun x => .float (if n.negative then -x else x)

end Number

/-- Doubles are written without an exponent from `10^-5` up to `10^16`. -/
def floatText (x : Float) : String :=
  let sign := if x.toBits >>> 63 = 0 then "" else "-"
  if x == 0 then sign ++ "0.0"
  else
    let d := Decimal.shortest x
    sign ++ (if -5 < d.point ∧ d.point ≤ 16 then d.plain else d.scientific)

end Notifications.Json
