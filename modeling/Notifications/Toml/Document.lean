import Notifications.Toml.Inline
/-!
A TOML text as one table. The text is cut into lines, the lines into sections under their headers,
and the sections are put together one after another.
-/
namespace Notifications.Toml

/-- A date, one space and a time of day are one word. -/
def joinMoments : List Token → List Token
  | .word date :: .space :: .word (c :: time) :: r =>
    if isDate date && Text.isDigit c then .word (date ++ ' ' :: c :: time) :: joinMoments r
    else .word date :: joinMoments (.space :: .word (c :: time) :: r)
  | t :: r => t :: joinMoments r
  | [] => []

/-- Where in a line a token stands: before its first one, in a header, or inside the brackets and
braces that are open, `true` for a bracket. -/
inductive Within
  | margin | header
  | line (brackets : List Bool)

def Within.next : Within → Token → Within
  | .margin, .space | .margin, .tab => .margin
  | .margin, .openArray => .header
  | .header, _ => .header
  | .margin, .openTable => .line [false]
  | .margin, _ => .line []
  | .line brackets, .openArray => .line (true :: brackets)
  | .line brackets, .openTable => .line (false :: brackets)
  | .line brackets, .closeArray | .line brackets, .closeTable => .line brackets.tail
  | .line brackets, _ => .line brackets

/-- A newline inside brackets does not end the line. -/
def Within.goesOn : Within → Bool
  | .line (bracket :: _) => bracket
  | _ => false

/-- Cuts a text into lines; `done` holds the line so far, newest token first. -/
def cutLines (w : Within) (done : List Token) : List Token → List (List Token)
  | [] => [done.reverse]
  | .newline :: r =>
    if w.goesOn then cutLines w (.newline :: done) r
    else done.reverse :: cutLines .margin [] r
  | t :: r => cutLines (w.next t) (t :: done) r

def isGap (t : Token) : Bool := t == .space || t == .tab

def trimGaps (ts : List Token) : List Token :=
  ((ts.dropWhile isGap).reverse.dropWhile isGap).reverse

inductive Statement
  /-- A header; `repeated` ones stand in double brackets. -/
  | header (repeated : Bool) (key : Key)
  | assignment (a : Assignment)

/-- The key between the opening brackets of a header, which are gone already, and the closing
ones. -/
def headerKey? (closing : Nat) (ts : List Token) : Option Key :=
  let r := ts.reverse
  if r.take closing = List.replicate closing .closeArray then Key.ofTokens (r.drop closing).reverse
  else none

def assignment? (ts : List Token) : Option Statement := do
  match ts.dropWhile (· != .equals) with
  | [] => none
  | _ :: value =>
    let key ← Key.ofTokens (ts.takeWhile (· != .equals))
    return .assignment ⟨key, ← Value.ofTokens value⟩

/-- The statement of a line that is not blank. -/
def Statement.ofTokens : List Token → Option Statement
  | .openArray :: .openArray :: r => (headerKey? 2 r).map (.header true)
  | .openArray :: r => (headerKey? 1 r).map (.header false)
  | ts => assignment? ts

def statements? (lines : List (List Token)) : Option (List Statement) :=
  ((lines.map trimGaps).filter (!·.isEmpty)).mapM Statement.ofTokens

/-- A header, and the assignments under it. -/
structure Section where
  repeated : Bool
  key : Key
  lines : List Assignment

/-- The assignments before the first header, and the sections. -/
def sections : List Statement → List Assignment × List Section
  | [] => ([], [])
  | .assignment a :: r =>
    let (lines, rest) := sections r
    (a :: lines, rest)
  | .header repeated key :: r =>
    let (lines, rest) := sections r
    ([], ⟨repeated, key, lines⟩ :: rest)

/-- Puts a table under its header. A table that is there already as the parent of others is taken
up, and goes to the end. -/
def headTable (name : String) (lines : List Assignment) (fields : Fields) : Option Fields := do
  let children ← match fields.lookup name with
    | none => some []
    | some (.table .implied children) => some children
    | some _ => none
  let table ← Fields.assignAll children lines
  return fields.filter (·.1 != name) ++ [(name, .table .headed table)]

/-- Adds a table to the ones under the same header. -/
def headElement (name : String) (lines : List Assignment) (fields : Fields) : Option Fields := do
  let table ← Fields.assignAll [] lines
  Fields.alter name
    (fun
      | none => some (.tables [table])
      | some (.tables elements) => some (.tables (elements ++ [table]))
      | some _ => none)
    fields

def addSection (fields : Fields) (s : Section) : Option Fields :=
  let act := if s.repeated then headElement s.key.name s.lines else headTable s.key.name s.lines
  Fields.within false s.key.path (fun _ fields => act fields) .headed fields

def ofSections (lines : List Assignment) (rest : List Section) : Option Fields := do
  rest.foldlM addSection (← Fields.assignAll [] lines)

/-- The table a text describes, unless the text is malformed. -/
def parse (text : List Char) : Option Value := do
  let ts ← tokens? text
  let (lines, rest) := sections (← statements? (cutLines .margin [] (joinMoments ts)))
  return .table .headed (← ofSections lines rest)

end Notifications.Toml
