import Notifications.Json.Fault
/-!
Strings as they are spelled. What a string means depends on the use: text wants every escape to be
a character, bytes take what the escapes spell, and a string that is only passed over has to end.
-/
namespace Notifications.Json

/-- A character as it stands, a character by its short escape, or a UTF-16 unit in hexadecimal. -/
inductive Piece
  | plain (c : Char)
  | escape (c : Char)
  | unit (code : Nat)
  deriving DecidableEq, Repr

/-- How a string ends: at its quote, at the end of the text, or at an escape that is none. -/
inductive QuotedEnd
  | closed | cutOff | unknownEscape | badHex
  deriving DecidableEq, Repr

structure Quoted where
  pieces : List Piece
  ending : QuotedEnd
  deriving DecidableEq, Repr

def QuotedEnd.fault? : QuotedEnd → Option Fault
  | .closed => none
  | .cutOff => some .endInString
  | .unknownEscape | .badHex => some .badEscape

def isLeading (code : Nat) : Bool := 0xD800 ≤ code && code ≤ 0xDBFF

def isTrailing (code : Nat) : Bool := 0xDC00 ≤ code && code ≤ 0xDFFF

/-- The code point that two surrogates stand for. -/
def joinSurrogates (leading trailing : Nat) : Nat :=
  (leading - 0xD800) * 0x400 + (trailing - 0xDC00) + 0x10000

/-- The characters that JSON wants escaped. -/
def isControl (c : Char) : Bool := c.toNat < 0x20

namespace Quoted

private def endOr {α : Type} (e : QuotedEnd) (a : α) : Except Fault α :=
  match e.fault? with
  | none => .ok a
  | some f => .error f

def charsOf (e : QuotedEnd) : List Piece → Except Fault (List Char)
  | [] => endOr e []
  | .plain c :: r => if isControl c then .error .controlCharacter else (c :: ·) <$> charsOf e r
  | .escape c :: r => (c :: ·) <$> charsOf e r
  | .unit n :: r =>
    if isTrailing n then .error .loneSurrogate
    else if isLeading n then
      match r with
      | .unit m :: r =>
        if isTrailing m then (Char.ofNat (joinSurrogates n m) :: ·) <$> charsOf e r
        else .error .loneSurrogate
      | _ :: _ => .error .openSurrogate
      | [] =>
        match e with
        | .closed | .unknownEscape => .error .openSurrogate
        | .cutOff => .error .endInString
        | .badHex => .error .badEscape
    else (Char.ofNat n :: ·) <$> charsOf e r

/-- The text a string spells. -/
def text (q : Quoted) : Except Fault String := String.ofList <$> charsOf q.ending q.pieces

/-- A code point in the byte pattern of UTF-8, surrogates included. -/
def bytesOfCode (n : Nat) : List UInt8 :=
  if n < 0x80 then [n.toUInt8]
  else if n < 0x800 then [(0xC0 + n / 64).toUInt8, (0x80 + n % 64).toUInt8]
  else if n < 0x10000 then
    [(0xE0 + n / 4096).toUInt8, (0x80 + n / 64 % 64).toUInt8, (0x80 + n % 64).toUInt8]
  else
    [(0xF0 + n / 262144).toUInt8, (0x80 + n / 4096 % 64).toUInt8, (0x80 + n / 64 % 64).toUInt8,
      (0x80 + n % 64).toUInt8]

def bytesOf (e : QuotedEnd) : List Piece → Except Fault (List UInt8)
  | [] => endOr e []
  | .plain c :: r => (bytesOfCode c.toNat ++ ·) <$> bytesOf e r
  | .escape c :: r => (bytesOfCode c.toNat ++ ·) <$> bytesOf e r
  | .unit n :: .unit m :: r =>
    if isLeading n && isTrailing m then (bytesOfCode (joinSurrogates n m) ++ ·) <$> bytesOf e r
    else (bytesOfCode n ++ ·) <$> bytesOf e (.unit m :: r)
  | .unit n :: r => (bytesOfCode n ++ ·) <$> bytesOf e r

/-- The bytes a string spells; here control characters and lone surrogates may stand. -/
def bytes (q : Quoted) : Except Fault (List UInt8) := bytesOf q.ending q.pieces

/-- Passes over a string: it must end, and hold no control characters. -/
def skim (q : Quoted) : Except Fault Unit :=
  if q.pieces.any fun | .plain c => isControl c | _ => false then .error .controlCharacter
  else endOr q.ending ()

/-- The spelling of a character in a string that is written. -/
def pieceOf (c : Char) : Piece :=
  if c = '"' ∨ c = '\\' ∨ c = '\n' ∨ c = '\r' ∨ c = '\t' ∨ c = '\x08' ∨ c = '\x0c' then .escape c
  else if isControl c then .unit c.toNat
  else .plain c

def ofText (s : String) : Quoted := ⟨s.toList.map pieceOf, .closed⟩

end Quoted

end Notifications.Json
