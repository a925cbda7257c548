import Notifications.Log
import Notifications.Text.Blank
import Notifications.Text.Digit
import Notifications.Text.Split
/-!
Which events are logged. A filter is a list of directives, each with a level for the targets that
begin with a text; of those that apply to an event the most specific one decides.
-/
namespace Notifications

def lowercase (s : String) : String := String.ofList (s.toList.map Char.toLower)

/-- A number of 64 bits as it may stand for a level. -/
def smallNumber? (s : String) : Option Nat :=
  let ds := match s.toList with
    | '+' :: r => r
    | r => r
  let n := Nat.ofDigitChars 10 ds 0
  if ds ≠ [] ∧ ds.all Text.isDigit ∧ n < UInt64.size then some n else none

namespace Level

/-- A level by its name in any case, or by its number. -/
def ofText? (s : String) : Option Level :=
  match smallNumber? s with
  | some n => all.find? (·.rank == n)
  | none => all.find? (·.name == lowercase s)

def expected : String :=
  "error parsing level: expected one of \"error\", \"warn\", \"info\", \"debug\", \"trace\", " ++
    "or a number 1-5"

end Level

/-- The most detailed rank that a directive lets pass; zero lets nothing pass. -/
def threshold? (s : String) : Option Nat :=
  if lowercase s = "off" ∨ smallNumber? s = some 0 then some 0 else (Level.ofText? s).map Level.rank

structure Directive where
  target : Option String
  /-- The fields an event must have. -/
  fields : List String
  threshold : Nat
  deriving DecidableEq, Repr

/-- The parts of a directive as it is written. -/
inductive Directive.Part
  | start
  | target
  | spanPart
  | fieldPart
  | fieldsEnd
  | spanEnd
  | level
  deriving DecidableEq, Repr

/-- A directive that is being read: the text of the part in progress, and the parts before it. -/
structure Directive.Reading where
  part : Directive.Part
  text : List Char
  target : Option String
  /-- The directive is about spans, or about values of fields: it says nothing about events. -/
  isDynamic : Bool
  fields : List String

namespace Directive

def Reading.taken (r : Reading) : String := String.ofList r.text

/-- A field and perhaps its value. -/
def Reading.addField (r : Reading) (next : Part) : Option Reading :=
  if r.text.isEmpty then none
  else
    some { r with
      part := next
      text := []
      fields := r.fields ++ [String.ofList (r.text.takeWhile (· != '='))]
      isDynamic := r.isDynamic || r.text.contains '=' }

def startsTarget (c : Char) : Bool :=
  c.isAlphanum || c == '-' || c == ':' || c == '_' || 0x80 ≤ c.toNat

/-- Reads a character; `shown` is the one that stands at its place in the text with its white
space. -/
def Reading.step (r : Reading) (c shown : Char) : Option Reading :=
  let more := { r with text := r.text ++ [shown] }
  match r.part with
  | .start =>
    if c == '[' then some { r with part := .spanPart }
    else if startsTarget c then some { more with part := .target }
    else none
  | .target =>
    if c == '=' then some { r with part := .level, text := [], target := some r.taken }
    else if c == '[' then some { r with part := .spanPart, text := [], target := some r.taken }
    else some more
  | .spanPart =>
    if c == ']' then some { r with part := .spanEnd, text := [], isDynamic := true }
    else if c == '{' then
      some { r with part := .fieldPart, text := [], isDynamic := !r.text.isEmpty }
    else some more
  | .fieldPart => if c == '}' then r.addField .fieldsEnd else some more
  | .fieldsEnd => if c == ']' then some { r with part := .spanEnd } else none
  | .spanEnd => if c == '=' then some { r with part := .level } else none
  | .level => some more

/-- What is read of a directive: whether it is dynamic, and what it says of events. -/
structure Parsed where
  isDynamic : Bool
  directive : Directive

def mostDetailed : Nat := Level.trace.rank

/-- The end of a directive; `rest` is the text behind the part that has been read. -/
def Reading.finish (r : Reading) (rest : List Char) : Option Parsed :=
  let text := String.ofList (r.text ++ rest)
  match r.part with
  | .target =>
    match threshold? text with
    | some t => some ⟨false, ⟨none, [], t⟩⟩
    | none => some ⟨false, ⟨some text, [], mostDetailed⟩⟩
  | .level =>
    if text = "" then some ⟨r.isDynamic, ⟨r.target, r.fields, mostDetailed⟩⟩
    else (threshold? text).map fun t => ⟨r.isDynamic, ⟨r.target, r.fields, t⟩⟩
  | .spanEnd => some ⟨r.isDynamic, ⟨r.target, r.fields, mostDetailed⟩⟩
  | _ => none

/-- Reads the trimmed text, and beside it the text as it was given. -/
def Reading.run (r : Reading) : (trimmed given : List Char) → Option Parsed
  | [], given => r.finish given
  | c :: cs, given => do run (← r.step c (given.head?.getD c)) cs given.tail

def parse (s : List Char) : Option Parsed :=
  Reading.run ⟨.start, [], none, false, []⟩ (Text.trim s) s

/-- The event is one that the directive is about. -/
def covers (d : Directive) (e : Event) : Bool :=
  d.target.all (fun t => t.toList.isPrefixOf e.origin.target.toList) &&
    d.fields.all (· ∈ e.fieldNames)

/-- More specific than another directive: by the length of the target, then by the fields. -/
def moreSpecific (a b : Directive) : Bool :=
  let size (d : Directive) : Nat := (d.target.map fun t => t.utf8ByteSize + 1).getD 0
  if size a ≠ size b then size b < size a
  else if a.fields.length ≠ b.fields.length then b.fields.length < a.fields.length
  else decide (b.fields < a.fields)

end Directive

/-- The directives of a filter in the order in which they were given. -/
structure LogFilter where
  directives : List Directive
  deriving DecidableEq, Repr

namespace LogFilter

/-- A filter without any directive lets errors pass. -/
def ofText? (s : String) : Option LogFilter := do
  let parts := (Text.splitAt ',' s.toList).filter (!·.isEmpty)
  let parsed ← parts.mapM Directive.parse
  if parsed.isEmpty then return ⟨[⟨none, [], Level.error.rank⟩]⟩
  else return ⟨(parsed.filter (!·.isDynamic)).map (·.directive)⟩

/-- The directive that decides about an event: the last of the most specific ones. -/
def decisive (f : LogFilter) (e : Event) : Option Directive :=
  (f.directives.filter (·.covers e)).foldl
    (fun best d =>
      match best with
      | none => some d
      | some b => if b.moreSpecific d then some b else some d)
    none

def passes (f : LogFilter) (e : Event) : Bool :=
  (f.decisive e).any fun d => e.level.rank ≤ d.threshold

end LogFilter

end Notifications
