/-!
The shortest decimal that reads back as a given double. A finite double is `m · 2^q`; the decimals
that read back as it fill an interval around it. Of the coarsest decimal grid with a point in that
interval, the point nearest to the double is taken.
-/
namespace Notifications.Decimal

/-- The positive decimal `0.d₁d₂… · 10^point`, with `d₁` and the last digit not zero. -/
structure Digits where
  digits : List Char
  point : Int
  deriving DecidableEq, Repr

/-- A finite double without its sign: `mantissa · 2^exponent`. -/
structure Binary where
  mantissa : Nat
  exponent : Int
  deriving DecidableEq, Repr

def Binary.ofBits (bits : UInt64) : Binary :=
  let fraction := bits.toNat % (1 <<< 52)
  let scale : Nat := (bits.toNat >>> 52) % (1 <<< 11)
  if scale = 0 then ⟨fraction, -1074⟩ else ⟨(1 <<< 52) + fraction, (scale : Int) - 1075⟩

/-- A double and the ends of its interval, as multiples of `1 / unit`. -/
structure Interval where
  value : Nat
  lower : Nat
  upper : Nat
  unit : Nat
  /-- The ends read back as the double too. -/
  closed : Bool

/-- At a power of two the next double below is half as far away as the next one above. -/
def Binary.interval (b : Binary) : Interval :=
  let quarter := 1 <<< b.exponent.toNat
  let value := 4 * b.mantissa * quarter
  let below := if b.mantissa = 1 <<< 52 ∧ b.exponent > -1074 then quarter else 2 * quarter
  ⟨value, value - below, value + 2 * quarter, 4 <<< (-b.exponent).toNat, b.mantissa % 2 = 0⟩

/-- The nearest point `k` of the grid of all `k · 10^step`, if one but zero lies in the interval. -/
def Interval.onGrid (i : Interval) (step : Int) : Option Nat :=
  let mesh := Nat.pow 10 step.toNat * i.unit
  let scale := Nat.pow 10 (-step).toNat
  let inside (k : Nat) : Bool :=
    let p := k * mesh
    k != 0 && if i.closed then i.lower * scale ≤ p && p ≤ i.upper * scale
      else i.lower * scale < p && p < i.upper * scale
  let low := i.value * scale / mesh
  let nearer := if 2 * (i.value * scale) ≤ (2 * low + 1) * mesh then low else low + 1
  [nearer, low, low + 1].find? inside

/-- Refines the grid until a point of it lies in the interval. -/
def Interval.search (i : Interval) : Nat → Int → Digits
  | 0, _ => ⟨['0'], 0⟩
  | tries + 1, step =>
    match i.onGrid step with
    | some k =>
      let ds := Nat.toDigits 10 k
      ⟨(ds.reverse.dropWhile (· == '0')).reverse, ds.length + step⟩
    | none => i.search tries (step - 1)

/-- The shortest decimal of a positive finite double: no double needs a grid finer than
`10^-343`. -/
def shortest (x : Float) : Digits :=
  let i := (Binary.ofBits x.toBits).interval
  let start := (Nat.toDigits 10 (i.value / i.unit)).length
  i.search (start + 344) start

/-- Digits before and after the point, without an exponent; at least one digit on each side. -/
def Digits.plain (d : Digits) : String :=
  let point := d.point.toNat
  let whole := d.digits.take point ++ List.replicate (point - d.digits.length) '0'
  let rest := List.replicate (-d.point).toNat '0' ++ d.digits.drop point
  String.ofList ((if whole.isEmpty then ['0'] else whole) ++ '.' ::
    (if rest.isEmpty then ['0'] else rest))

/-- One digit before the point, then an exponent with a sign and at least two digits. -/
def Digits.scientific (d : Digits) : String :=
  let exponent := d.point - 1
  let size := Nat.toDigits 10 exponent.natAbs
  let mantissa :=
    match d.digits with
    | [] => ['0']
    | [c] => [c]
    | c :: r => c :: '.' :: r
  String.ofList (mantissa ++ 'e' :: (if exponent < 0 then '-' else '+') ::
    (if size.length < 2 then '0' :: size else size))

end Notifications.Decimal
