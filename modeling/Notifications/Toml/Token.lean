import Notifications.Text.Digit
/-!
The tokens of a TOML text. The scanner is a finite control that takes one character at a time. Words
are runs of the characters that bare keys, numbers and dates are made of; what a word means depends
on where it stands.
-/
namespace Notifications.Toml

open Text (isDigit hexValue?)

inductive Token
  | word (chars : List Char)
  /-- A string, and whether it may span lines. -/
  | text (spans : Bool) (s : String)
  | space | tab | newline
  | openArray | closeArray | openTable | closeTable | comma | equals
  deriving DecidableEq, Repr

/-- The characters of bare keys. -/
def isBare (c : Char) : Bool :=
  isDigit c || ('a' ≤ c && c ≤ 'z') || ('A' ≤ c && c ≤ 'Z') || c == '-' || c == '_'

def isWord (c : Char) : Bool := isBare c || c == '+' || c == '.' || c == ':'

/-- The characters that strings and comments hold as they are. -/
def isPlain (c : Char) : Bool := c == '\t' || (0x20 ≤ c.toNat && c.toNat ≠ 0x7F)

/-- Strings in double quotes have escapes, those in single quotes have none. -/
inductive Quote
  | basic | literal
  deriving DecidableEq, Repr

def Quote.mark : Quote → Char
  | .basic => '"'
  | .literal => '\''

/-- A string that is being read, with its characters newest first. -/
structure Opened where
  quote : Quote
  spans : Bool
  done : List Char

def Opened.push (o : Opened) (c : Char) : Opened := { o with done := c :: o.done }

def Opened.token (o : Opened) : Token := .text o.spans (String.ofList o.done.reverse)

/-- Where a string is at. -/
inductive Inside
  | content
  /-- Three quotes have just been read: a newline here is not part of the string. -/
  | first
  /-- Some quotes in a row that may end the string. -/
  | quotes (n : Nat)
  /-- A carriage return that wants its newline; it follows the opening quotes if `atFirst`. -/
  | carriage (atFirst : Bool)
  | escape
  /-- An escape that wants `left` more hexadecimal digits. -/
  | hex (left code : Nat)
  /-- White space that an escape drops, and whether a newline was among it. -/
  | dropped (newline : Bool)
  | droppedCarriage

inductive ScanState
  | between
  | word (done : List Char)
  | comment
  | carriage
  | quote (q : Quote)
  | twoQuotes (q : Quote)
  | string (o : Opened) (i : Inside)

/-- The tokens that are complete, and the state after them. -/
abbrev Scanned := Option (List Token × ScanState)

/-- A step that begins a token. -/
def startToken (c : Char) : Scanned :=
  if c == ' ' then some ([.space], .between)
  else if c == '\t' then some ([.tab], .between)
  else if c == '\n' then some ([.newline], .between)
  else if c == '\r' then some ([], .carriage)
  else if c == '#' then some ([], .comment)
  else if c == '"' then some ([], .quote .basic)
  else if c == '\'' then some ([], .quote .literal)
  else if c == '[' then some ([.openArray], .between)
  else if c == ']' then some ([.closeArray], .between)
  else if c == '{' then some ([.openTable], .between)
  else if c == '}' then some ([.closeTable], .between)
  else if c == ',' then some ([.comma], .between)
  else if c == '=' then some ([.equals], .between)
  else if isWord c then some ([], .word [c])
  else none

/-- Puts a complete token before what `c` begins. -/
def startAfter (t : Token) (c : Char) : Scanned :=
  (startToken c).map fun (ts, s) => (t :: ts, s)

def shortEscape? : Char → Option Char
  | 'b' => some '\x08'
  | 't' => some '\t'
  | 'n' => some '\n'
  | 'f' => some '\x0c'
  | 'r' => some '\r'
  | '"' => some '"'
  | '\\' => some '\\'
  | _ => none

/-- The character of a code point; surrogates are none. -/
def charOf? (code : Nat) : Option Char :=
  if code.isValidChar then some (Char.ofNat code) else none

/-- A character of the content of a string. -/
def contentStep (o : Opened) (c : Char) : Scanned :=
  if c == o.quote.mark then
    if o.spans then some ([], .string o (.quotes 1)) else some ([o.token], .between)
  else if c == '\\' && o.quote == .basic then some ([], .string o .escape)
  else if c == '\n' then if o.spans then some ([], .string (o.push c) .content) else none
  else if c == '\r' then if o.spans then some ([], .string o (.carriage false)) else none
  else if isPlain c then some ([], .string (o.push c) .content)
  else none

def escapeStep (o : Opened) (c : Char) : Scanned :=
  if c == 'u' then some ([], .string o (.hex 4 0))
  else if c == 'U' then some ([], .string o (.hex 8 0))
  else if o.spans && (c == ' ' || c == '\t') then some ([], .string o (.dropped false))
  else if o.spans && c == '\n' then some ([], .string o (.dropped true))
  else if o.spans && c == '\r' then some ([], .string o .droppedCarriage)
  else (shortEscape? c).map fun d => ([], .string (o.push d) .content)

def stringStep (o : Opened) (c : Char) : Inside → Scanned
  | .content => contentStep o c
  | .first =>
    if c == '\n' then some ([], .string o .content)
    else if c == '\r' then some ([], .string o (.carriage true))
    else contentStep o c
  | .quotes n =>
    if c == o.quote.mark then if n < 5 then some ([], .string o (.quotes (n + 1))) else none
    else if n < 3 then contentStep { o with done := List.replicate n o.quote.mark ++ o.done } c
    else startAfter
      ({ o with done := List.replicate (n - 3) o.quote.mark ++ o.done } : Opened).token c
  | .carriage atFirst =>
    if c == '\n' then some ([], .string (if atFirst then o else o.push '\n') .content) else none
  | .escape => escapeStep o c
  | .hex left code =>
    match hexValue? c with
    | none => none
    | some d =>
      if left ≤ 1 then (charOf? (code * 16 + d)).map fun c => ([], .string (o.push c) .content)
      else some ([], .string o (.hex (left - 1) (code * 16 + d)))
  | .dropped newline =>
    if c == ' ' || c == '\t' then some ([], .string o (.dropped newline))
    else if c == '\n' then some ([], .string o (.dropped true))
    else if c == '\r' then some ([], .string o .droppedCarriage)
    else if newline then contentStep o c
    else none
  | .droppedCarriage => if c == '\n' then some ([], .string o (.dropped true)) else none

def scanStep (c : Char) : ScanState → Scanned
  | .between => startToken c
  | .word done =>
    if isWord c then some ([], .word (c :: done)) else startAfter (.word done.reverse) c
  | .comment =>
    if c == '\n' then some ([.newline], .between)
    else if c == '\r' then some ([], .carriage)
    else if isPlain c then some ([], .comment)
    else none
  | .carriage => if c == '\n' then some ([.newline], .between) else none
  | .quote q =>
    if c == q.mark then some ([], .twoQuotes q) else contentStep ⟨q, false, []⟩ c
  | .twoQuotes q =>
    if c == q.mark then some ([], .string ⟨q, true, []⟩ .first) else startAfter (.text false "") c
  | .string o i => stringStep o c i

/-- The tokens that the end of the text completes. -/
def ScanState.finish : ScanState → Option (List Token)
  | .between | .comment => some []
  | .word done => some [.word done.reverse]
  | .twoQuotes _ => some [.text false ""]
  | .string o (.quotes n) =>
    if n < 3 then none
    else some [({ o with done := List.replicate (n - 3) o.quote.mark ++ o.done } : Opened).token]
  | .carriage | .quote _ | .string _ _ => none

def scan : ScanState → List Char → Option (List Token)
  | s, [] => s.finish
  | s, c :: r => do
    let (ts, s) ← scanStep c s
    return ts ++ (← scan s r)

/-- A byte order mark at the beginning is not part of the text. -/
def tokens? (text : List Char) : Option (List Token) :=
  scan .between (if text.head? = some '\uFEFF' then text.tail else text)

end Notifications.Toml
