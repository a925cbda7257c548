import Notifications.Json.Number
import Notifications.Json.Quoted
import Notifications.Text.Digit
/-!
The tokens of a JSON text. The scanner is a finite control that takes one character at a time; it
stops at the first thing that is no token, which comes last in the list.
-/
namespace Notifications.Json

open Text (isDigit hexValue?)

/-- A place where a value should stand and none does; `atEnd` when the text ended inside it. -/
inductive Broken
  | missing
  | stray
  | word (atEnd : Bool)
  | number (atEnd : Bool)
  deriving DecidableEq, Repr

inductive Token
  | null
  | bool (b : Bool)
  | number (n : Number)
  | string (q : Quoted)
  | openArray | closeArray | openObject | closeObject | comma | colon
  | broken (b : Broken)
  deriving DecidableEq, Repr

/-- How much of a number has been read. -/
inductive NumberPart
  | sign | zero | whole | point | fraction | mark | markSign | power
  deriving DecidableEq, Repr

/-- What the scanner is in the middle of. Pieces of a string are kept newest first. -/
inductive ScanState
  | between
  | word (left : List Char) (token : Token)
  | number (part : NumberPart) (n : Number)
  | string (pieces : List Piece)
  | escape (pieces : List Piece)
  /-- A hexadecimal escape of which `bytes` bytes are read; no code once one was no digit. -/
  | hex (pieces : List Piece) (bytes : Nat) (code : Option Nat)

def isSpace (c : Char) : Bool := c == ' ' || c == '\t' || c == '\n' || c == '\r'

def shortEscape? : Char → Option Char
  | '"' => some '"'
  | '\\' => some '\\'
  | '/' => some '/'
  | 'b' => some '\x08'
  | 'f' => some '\x0c'
  | 'n' => some '\n'
  | 'r' => some '\r'
  | 't' => some '\t'
  | _ => none

def quotedToken (pieces : List Piece) (ending : QuotedEnd) : Token :=
  .string ⟨pieces.reverse, ending⟩

/-- One step of the scanner: it goes on, goes on after a token, or stops after a last token. -/
inductive ScanStep
  | next (s : ScanState)
  | emit (t : Token) (s : ScanState)
  | stop (t : Token)

/-- A step that begins a token. -/
def startToken (c : Char) : ScanStep :=
  if isSpace c then .next .between
  else if c == '"' then .next (.string [])
  else if c == '-' then .next (.number .sign ⟨true, [], [], none⟩)
  else if c == '0' then .next (.number .zero ⟨false, [c], [], none⟩)
  else if isDigit c then .next (.number .whole ⟨false, [c], [], none⟩)
  else if c == '[' then .emit .openArray .between
  else if c == ']' then .emit .closeArray .between
  else if c == '{' then .emit .openObject .between
  else if c == '}' then .emit .closeObject .between
  else if c == ',' then .emit .comma .between
  else if c == ':' then .emit .colon .between
  else if c == 'n' then .next (.word ['u', 'l', 'l'] .null)
  else if c == 't' then .next (.word ['r', 'u', 'e'] (.bool true))
  else if c == 'f' then .next (.word ['a', 'l', 's', 'e'] (.bool false))
  else .stop (.broken .stray)

def Number.addWhole (n : Number) (c : Char) : Number := { n with whole := n.whole ++ [c] }

def Number.addFraction (n : Number) (c : Char) : Number := { n with fraction := n.fraction ++ [c] }

def Number.addPower (n : Number) (c : Char) : Number :=
  { n with exponent := n.exponent.map fun e => { e with digits := e.digits ++ [c] } }

/-- A step inside a number; nothing when the number is complete and `c` is not part of it. -/
def numberStep (part : NumberPart) (n : Number) (c : Char) : Option ScanStep :=
  let bad : ScanStep := .stop (.broken (.number false))
  let mark := .next (.number .mark { n with exponent := some ⟨false, []⟩ })
  let isMark := c == 'e' || c == 'E'
  match part with
  | .sign =>
    if c == '0' then some (.next (.number .zero (n.addWhole c)))
    else if isDigit c then some (.next (.number .whole (n.addWhole c)))
    else some bad
  | .zero =>
    if isDigit c then some bad
    else if c == '.' then some (.next (.number .point n))
    else if isMark then some mark
    else none
  | .whole =>
    if isDigit c then some (.next (.number .whole (n.addWhole c)))
    else if c == '.' then some (.next (.number .point n))
    else if isMark then some mark
    else none
  | .point =>
    if isDigit c then some (.next (.number .fraction (n.addFraction c))) else some bad
  | .fraction =>
    if isDigit c then some (.next (.number .fraction (n.addFraction c)))
    else if isMark then some mark
    else none
  | .mark =>
    if isDigit c then some (.next (.number .power (n.addPower c)))
    else if c == '+' then some (.next (.number .markSign n))
    else if c == '-' then some (.next (.number .markSign { n with exponent := some ⟨true, []⟩ }))
    else some bad
  | .markSign =>
    if isDigit c then some (.next (.number .power (n.addPower c))) else some bad
  | .power =>
    if isDigit c then some (.next (.number .power (n.addPower c))) else none

/-- The number part is a whole number by itself. -/
def NumberPart.complete : NumberPart → Bool
  | .zero | .whole | .fraction | .power => true
  | _ => false

/-- The token that the end of the text makes of what has been read. -/
def ScanState.finish : ScanState → List Token
  | .between => []
  | .word _ _ => [.broken (.word true)]
  | .number part n => if part.complete then [.number n] else [.broken (.number true)]
  | .string pieces | .escape pieces | .hex pieces _ _ => [quotedToken pieces .cutOff]

/-- Goes on after a complete number with a character that is not part of it. -/
def afterNumber (n : Number) (c : Char) (go : ScanState → List Token) : List Token :=
  match startToken c with
  | .next s => .number n :: go s
  | .emit t s => .number n :: t :: go s
  | .stop t => [.number n, t]

/-- An escape counts four bytes of the text before it is judged. -/
def hexStep (pieces : List Piece) (bytes : Nat) (code : Option Nat) (c : Char) : ScanStep :=
  let code := do return (← code) * 16 + (← hexValue? c)
  let bytes := bytes + c.utf8Size
  if bytes < 4 then .next (.hex pieces bytes code)
  else
    match code with
    | some n => .next (.string (.unit n :: pieces))
    | none => .stop (quotedToken pieces .badHex)

def scan : ScanState → List Char → List Token
  | s, [] => s.finish
  | .between, c :: r =>
    match startToken c with
    | .next s => scan s r
    | .emit t s => t :: scan s r
    | .stop t => [t]
  | .word left token, c :: r =>
    match left with
    | [] => [.broken (.word false)]
    | d :: left =>
      if c == d then
        match left with
        | [] => token :: scan .between r
        | _ => scan (.word left token) r
      else [.broken (.word false)]
  | .number part n, c :: r =>
    match numberStep part n c with
    | some (.next s) => scan s r
    | some (.emit t s) => t :: scan s r
    | some (.stop t) => [t]
    | none => afterNumber n c fun s => scan s r
  | .string pieces, c :: r =>
    if c == '"' then quotedToken pieces .closed :: scan .between r
    else if c == '\\' then scan (.escape pieces) r
    else scan (.string (.plain c :: pieces)) r
  | .escape pieces, c :: r =>
    if c == 'u' then scan (.hex pieces 0 (some 0)) r
    else
      match shortEscape? c with
      | some d => scan (.string (.escape d :: pieces)) r
      | none => [quotedToken pieces .unknownEscape]
  | .hex pieces bytes code, c :: r =>
    match hexStep pieces bytes code c with
    | .next s => scan s r
    | .emit t s => t :: scan s r
    | .stop t => [t]

def tokens (text : List Char) : List Token := scan .between text

end Notifications.Json
