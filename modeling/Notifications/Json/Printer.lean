import Notifications.Json.Node
/-!
Trees as text, without white space. Values are written as trees first: a tree built from
`Node.ofText`, `Node.ofInt`, `Node.list` and `Node.record` is a whole JSON value.
-/
namespace Notifications.Json

/-- The letter of a short escape. -/
def escapeLetter (c : Char) : Char :=
  if c = '\n' then 'n'
  else if c = '\r' then 'r'
  else if c = '\t' then 't'
  else if c = '\x08' then 'b'
  else if c = '\x0c' then 'f'
  else c

/-- The four hexadecimal digits of a UTF-16 unit. -/
def hexUnit (n : Nat) : List Char :=
  [n / 4096 % 16, n / 256 % 16, n / 16 % 16, n % 16].map Nat.digitChar

def Piece.chars : Piece → List Char
  | .plain c => [c]
  | .escape c => ['\\', escapeLetter c]
  | .unit n => '\\' :: 'u' :: hexUnit n

def Quoted.chars (q : Quoted) : List Char := '"' :: q.pieces.flatMap Piece.chars ++ ['"']

def Exponent.chars (e : Exponent) : List Char :=
  'e' :: (if e.negative then ['-'] else []) ++ e.digits

def Number.chars (n : Number) : List Char :=
  (if n.negative then ['-'] else []) ++ n.whole ++
    (if n.fraction.isEmpty then [] else '.' :: n.fraction) ++
    (match n.exponent with
    | none => []
    | some e => e.chars)

mutual
def Node.chars : Node → List Char
  | .null => ['n', 'u', 'l', 'l']
  | .bool true => ['t', 'r', 'u', 'e']
  | .bool false => ['f', 'a', 'l', 's', 'e']
  | .number n => n.chars
  | .string q => q.chars
  | .array items => '[' :: items.chars true
  | .object fields => '{' :: fields.chars true
  | .broken _ => []

def Items.chars (first : Bool) : Items → List Char
  | .last _ => [']']
  | .item n rest => (if first then [] else [',']) ++ n.chars ++ rest.chars false

def Fields.chars (first : Bool) : Fields → List Char
  | .last _ => ['}']
  | .field key value rest =>
    (if first then [] else [',']) ++ key.chars ++ ':' :: value.chars ++ rest.chars false
end

def Items.ofList (l : List Node) : Items := l.foldr .item (.last .closed)

def Fields.ofList (l : List (String × Node)) : Fields :=
  l.foldr (fun f rest => .field (.ofText f.1) f.2 rest) (.last .closed)

namespace Node

def ofText (s : String) : Node := .string (.ofText s)

def ofInt (n : Int) : Node := .number (.ofInt n)

def list (l : List Node) : Node := .array (.ofList l)

def record (fields : List (String × Node)) : Node := .object (.ofList fields)

def print (n : Node) : String := String.ofList n.chars

end Node

end Notifications.Json
