import Notifications.Text.Digit
import Notifications.Toml.Value
/-! Words as values: booleans, integers, doubles, and moments in time. -/
namespace Notifications.Toml

open Text (isDigit hexValue?)

/-- The digits of a number, in which single underscores may stand between two digits. -/
def digits? (isDigit : Char → Bool) : List Char → Option (List Char)
  | [] => none
  | [d] => if isDigit d then some [d] else none
  | d :: '_' :: r => if isDigit d then (digits? isDigit r).map (d :: ·) else none
  | d :: r => if isDigit d then (digits? isDigit r).map (d :: ·) else none

/-- Decimal digits of which the first is not a zero, or one zero. -/
def whole? (cs : List Char) : Option (List Char) := do
  let ds ← digits? isDigit cs
  if ds.head? = some '0' ∧ ds.length ≠ 1 then none else return ds

/-- A number's sign, and the rest of it. -/
def splitSign : List Char → Bool × List Char
  | '-' :: r => (true, r)
  | '+' :: r => (false, r)
  | r => (false, r)

def signed (negative : Bool) (n : Nat) : Int := if negative then -n else n

def decimal? (cs : List Char) : Option Int := do
  let (negative, cs) := splitSign cs
  return signed negative (Nat.ofDigitChars 10 (← whole? cs) 0)

def digitIn (base : Nat) (c : Char) : Bool := (hexValue? c).any (· < base)

/-- A number in another base than ten has no sign. -/
def based? (base : Nat) (cs : List Char) : Option Int := do
  let ds ← digits? (digitIn base) cs
  return ds.foldl (fun n d => n * base + (hexValue? d).getD 0) (0 : Nat)

/-- Integers have 64 bits. -/
def integer? (cs : List Char) : Option Int64 := do
  let n ← match cs with
    | '0' :: 'x' :: r => based? 16 r
    | '0' :: 'o' :: r => based? 8 r
    | '0' :: 'b' :: r => based? 2 r
    | cs => decimal? cs
  if Int64.minValue.toInt ≤ n ∧ n ≤ Int64.maxValue.toInt then return .ofInt n else none

def infinity : Float := 1 / 0

/-- The double nearest to `n · 10^scale`, where `n` has `length` digits. -/
def nearest (n length : Nat) (scale : Int) : Float :=
  if n = 0 ∨ length + scale < -400 then 0
  else if length + scale > 400 then infinity
  else Float.ofScientific n (scale < 0) scale.natAbs

def exponent? (cs : List Char) : Option Int := do
  let (negative, cs) := splitSign cs
  return signed negative (Nat.ofDigitChars 10 (← digits? isDigit cs) 0)

def isMark (c : Char) : Bool := c == 'e' || c == 'E'

/-- The digits after the point, if there is one, and the power of ten; one of the two must be
there. -/
def scale? : List Char → Option (List Char × Int)
  | '.' :: r => do
    let fraction ← digits? isDigit (r.takeWhile (!isMark ·))
    match r.dropWhile (!isMark ·) with
    | [] => return (fraction, 0)
    | _ :: r => return (fraction, ← exponent? r)
  | c :: r => if isMark c then (exponent? r).map ([], ·) else none
  | [] => none

/-- A number past the largest double is refused, unless it is negative. -/
def double? (cs : List Char) : Option Float := do
  let (negative, cs) := splitSign cs
  let isRest (c : Char) : Bool := c == '.' || isMark c
  let whole ← whole? (cs.takeWhile (!isRest ·))
  let (fraction, power) ← scale? (cs.dropWhile (!isRest ·))
  let ds := (whole ++ fraction).dropWhile (· == '0')
  let x := nearest (Nat.ofDigitChars 10 ds 0) ds.length (power - fraction.length)
  if negative then return -x
  else if x.isInf then none else return x

def special? (cs : List Char) : Option Float :=
  let (negative, cs) := splitSign cs
  match String.ofList cs with
  | "inf" => some (if negative then -infinity else infinity)
  | "nan" => some (0 / 0)
  | _ => none

/-- A number of just `count` digits between two bounds, and what follows it. -/
def fixed? (count low high : Nat) (cs : List Char) : Option (Nat × List Char) :=
  let ds := cs.take count
  let n := Nat.ofDigitChars 10 ds 0
  if ds.length = count ∧ ds.all isDigit ∧ low ≤ n ∧ n ≤ high then some (n, cs.drop count) else none

/-- What follows the character `c`. -/
def after? (c : Char) : List Char → Option (List Char)
  | d :: r => if d = c then some r else none
  | [] => none

def daysIn (year month : Nat) : Nat :=
  if month = 2 then
    if year % 4 = 0 ∧ (year % 100 ≠ 0 ∨ year % 400 = 0) then 29 else 28
  else if month = 4 ∨ month = 6 ∨ month = 9 ∨ month = 11 then 30
  else 31

/-- Passes over a date. -/
def afterDate? (cs : List Char) : Option (List Char) := do
  let (year, cs) ← fixed? 4 0 9999 cs
  let (month, cs) ← fixed? 2 1 12 (← after? '-' cs)
  let (_, cs) ← fixed? 2 1 (daysIn year month) (← after? '-' cs)
  return cs

/-- Passes over a time of day; there may be a leap second. -/
def afterTime? (cs : List Char) : Option (List Char) := do
  let (_, cs) ← fixed? 2 0 23 cs
  let (_, cs) ← fixed? 2 0 59 (← after? ':' cs)
  let (_, cs) ← fixed? 2 0 60 (← after? ':' cs)
  match cs with
  | '.' :: d :: r => if isDigit d then return r.dropWhile isDigit else none
  | cs => return cs

/-- Nothing, or the distance from universal time. -/
def isOffset (cs : List Char) : Bool :=
  match cs with
  | [] | ['Z'] | ['z'] => true
  | c :: r =>
    (c == '+' || c == '-') &&
      (do
        let (_, cs) ← fixed? 2 0 23 r
        let (_, cs) ← fixed? 2 0 59 (← after? ':' cs)
        return cs) == some []

def isDate (cs : List Char) : Bool := afterDate? cs == some []

def isMoment (cs : List Char) : Bool :=
  match afterDate? cs with
  | some [] => true
  | some (c :: r) => (c == 'T' || c == 't' || c == ' ') && (afterTime? r).any isOffset
  | none => afterTime? cs == some []

/-- The value of a word. -/
def scalar? (cs : List Char) : Option Value :=
  if cs = ['t', 'r', 'u', 'e'] then some (.bool true)
  else if cs = ['f', 'a', 'l', 's', 'e'] then some (.bool false)
  else if isMoment cs then some (.moment (String.ofList cs))
  else
    (integer? cs).map .integer <|> (double? cs).map .float <|> (special? cs).map .float

end Notifications.Toml
