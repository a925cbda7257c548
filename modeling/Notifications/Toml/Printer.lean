import Notifications.Toml.Inline
/-!
Strings and keys in TOML. A string is spelled in the plainest way that it allows: in double quotes
without escapes, in single quotes, and then in the forms that span lines; escapes come last.
-/
namespace Notifications.Toml

/-- The length of the longest run of `c` that begins with `now` and goes on in the text. -/
def longestRun (c : Char) (now : Nat) : List Char → Nat
  | [] => now
  | d :: r => if d = c then longestRun c (now + 1) r else max now (longestRun c 0 r)

def isControl (c : Char) : Bool := c.toNat < 0x20 || c.toNat == 0x7F

/-- Control characters that can only be written as escapes. -/
def isUnprintable (c : Char) : Bool := isControl c && c != '\t' && c != '\n'

/-- What decides how a text can be spelled. -/
structure Traits where
  unprintable : Bool
  backslash : Bool
  newline : Bool
  /-- The longest runs of quotes. -/
  double : Nat
  single : Nat

def Traits.ofChars (cs : List Char) : Traits where
  unprintable := cs.any isUnprintable
  backslash := cs.contains '\\'
  newline := cs.contains '\n'
  double := longestRun '"' 0 cs
  single := longestRun '\'' 0 cs

structure Spelling where
  quote : Quote
  spans : Bool
  deriving DecidableEq, Repr

def Traits.spelling (t : Traits) : Spelling :=
  if t.unprintable then ⟨.basic, t.newline⟩
  else if !t.backslash && t.double = 0 && !t.newline then ⟨.basic, false⟩
  else if t.single = 0 && !t.newline then ⟨.literal, false⟩
  else if !t.backslash && t.double ≤ 2 then ⟨.basic, true⟩
  else if t.single ≤ 2 then ⟨.literal, true⟩
  else ⟨.basic, t.newline⟩

/-- The spelling of a key, which cannot span lines. -/
def Traits.keySpelling (t : Traits) : Quote :=
  if !t.unprintable && !t.newline && (t.backslash || t.double ≠ 0) && t.single = 0 then .literal
  else .basic

def hexDigit (n : Nat) : Char := (Nat.digitChar (n % 16)).toUpper

/-- A character in a string in double quotes; `double` quotes stand before it. -/
def escaped (spans : Bool) (double : Nat) (c : Char) : List Char :=
  if c = '"' then if (if spans then 2 else 0) ≤ double then ['\\', '"'] else ['"']
  else if c = '\\' then ['\\', '\\']
  else if c = '\x08' then ['\\', 'b']
  else if c = '\t' then ['\\', 't']
  else if c = '\n' then if spans then ['\n'] else ['\\', 'n']
  else if c = '\x0c' then ['\\', 'f']
  else if c = '\r' then ['\\', 'r']
  else if isControl c then ['\\', 'u', '0', '0', hexDigit (c.toNat / 16), hexDigit c.toNat]
  else [c]

/-- The content of a string in double quotes. A run of quotes that is too long has an escape in it,
after which the run begins anew. -/
def escapeAll (spans : Bool) (double : Nat) : List Char → List Char
  | [] => []
  | c :: r =>
    let limit := if spans then 2 else 0
    let next := if c = '"' ∧ double < limit then double + 1 else 0
    escaped spans double c ++ escapeAll spans next r

/-- A string in a given spelling. A newline after the opening quotes is not part of it. -/
def Spelling.print (s : Spelling) (cs : List Char) : List Char :=
  let quotes := List.replicate (if s.spans then 3 else 1) s.quote.mark
  let content :=
    match s.quote with
    | .basic => escapeAll s.spans 0 cs
    | .literal => cs
  quotes ++ (if s.spans && cs.contains '\n' then ['\n'] else []) ++ content ++ quotes

def printText (s : String) : List Char := (Traits.ofChars s.toList).spelling.print s.toList

def printKey (s : String) : List Char :=
  if !s.isEmpty && s.toList.all isBare then s.toList
  else (Spelling.mk (Traits.ofChars s.toList).keySpelling false).print s.toList

def printBool : Bool → List Char
  | true => ['t', 'r', 'u', 'e']
  | false => ['f', 'a', 'l', 's', 'e']

/-- An integer, unless it is too large for TOML. -/
def printCount? (n : UInt64) : Option (List Char) :=
  if n.toNat ≤ Int64.maxValue.toInt then some (Nat.toDigits 10 n.toNat) else none

end Notifications.Toml
