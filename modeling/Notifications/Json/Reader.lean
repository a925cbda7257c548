import Notifications.Data.Schema
import Notifications.Json.Check
/-!
Reading values from a JSON tree. A tree is read as it comes from its text, or from a part of the
text that was set aside and checked first; the two differ in few places, and `Source` says which one
it is.
-/
namespace Notifications.Json

open Notifications.Data (Dictionary Error Found Row Schema Slots choose)

inductive Source
  /-- The text itself, with the room that is left for nested containers. -/
  | text (depth : Nat)
  | buffer
  deriving DecidableEq, Repr

/-- A part of a tree under its source. -/
structure Part where
  source : Source
  node : Node

abbrev Reader (α : Type) := Part → Except Error α

def fault {α : Type} (f : Fault) : Except Error α := .error (.malformed f)

def ofFault {α : Type} : Except Fault α → Except Error α
  | .ok a => .ok a
  | .error f => fault f

def raise : Option Fault → Except Error Unit
  | none => .ok ()
  | some f => fault f

/-- The source inside a container. -/
def Source.enter : Source → Except Error Source
  | .text depth => (ofFault (descend depth)).map .text
  | s => .ok s

/-- The error for a value of another kind than `wanted`. -/
def Node.mismatch (wanted : String) : Node → Error
  | .null => .wrongType .null wanted
  | .bool b => .wrongType (.bool b) wanted
  | .number n =>
    match n.amount? with
    | none => .malformed .numberTooLarge
    | some (.integer k) => .wrongType (.integer k) wanted
    | some (.float x) => .wrongType (.float (floatText x)) wanted
  | .string q =>
    match q.text with
    | .error f => .malformed f
    | .ok s => .wrongType (.text s) wanted
  | .array _ => .wrongType .sequence wanted
  | .object _ => .wrongType .map wanted
  | .broken b => .malformed b.fault

namespace Reader

def textAs (wanted : String) : Reader String
  | ⟨_, .string q⟩ => ofFault q.text
  | p => .error (p.node.mismatch wanted)

def text : Reader String := textAs "a string"

def bool : Reader Bool
  | ⟨_, .bool b⟩ => .ok b
  | p => .error (p.node.mismatch "a boolean")

def integer (wanted : String) : Reader Int
  | ⟨_, .number n⟩ =>
    match n.integer? with
    | some k => .ok k
    | none => .error ((Node.number n).mismatch wanted)
  | p => .error (p.node.mismatch wanted)

/-- An integer between two bounds. -/
def bounded (wanted : String) (low high : Int) : Reader Int := fun p => do
  let k ← integer wanted p
  if low ≤ k ∧ k ≤ high then return k else .error (.wrongValue (.integer k) wanted)

def count : Reader UInt64 := fun p => do
  return (← bounded "usize" 0 (UInt64.size - 1) p).toNat.toUInt64

def int64 : Reader Int64 := fun p => do
  return Int64.ofInt (← bounded "i64" Int64.minValue.toInt Int64.maxValue.toInt p)

def byte : Reader UInt8 := fun p => do
  return (← bounded "u8" 0 255 p).toNat.toUInt8

def optional {α : Type} (r : Reader α) : Reader (Option α)
  | ⟨_, .null⟩ => .ok none
  | p => some <$> r p

/-- The next element of an array, if there is one. -/
def nextItem (s : Source) : Items → Except Error (Option (Part × Items))
  | .item n rest => .ok (some (⟨s, n⟩, rest))
  | .last e => (raise e.fault?).map fun _ => none

def items {α : Type} (r : Reader α) (s : Source) : Items → Except Error (List α)
  | .item n rest => do
    let a ← r ⟨s, n⟩
    return a :: (← items r s rest)
  | .last e => (raise e.fault?).map fun _ => []

def list {α : Type} (r : Reader α) : Reader (List α)
  | ⟨s, .array content⟩ => do items r (← s.enter) content
  | p => .error (p.node.mismatch "a sequence")

/-- Bytes are a string that spells them, or an array of them. -/
def bytes : Reader (List UInt8)
  | ⟨_, .string q⟩ => ofFault q.bytes
  | ⟨s, .array content⟩ => do items byte (← s.enter) content
  | p => .error (p.node.mismatch "byte array")

end Reader

/-- Walks through the fields of an object: `meet` sees each key, `take` each key with its value. -/
def Fields.walk {σ : Type} (meet : σ → String → Except Error Unit)
    (take : σ → String → Node → Except Error σ) : Fields → σ → Except Error σ
  | .field key value rest, a => do
    let name ← ofFault key.text
    meet a name
    rest.walk meet take (← take a name value)
  | .last e, a => do
    if let .noColon key _ := e then meet a (← ofFault key.text)
    raise e.fault?
    return a

namespace Reader

def fields {ts : List Type} (schema : Schema Part ts) (s : Source) (content : Fields) :
    Except Error (Row ts) := do
  let meet (slots : Slots ts) (name : String) : Except Error Unit :=
    if schema.isFilled name slots then .error (.repeatedField name) else .ok ()
  let take (slots : Slots ts) (name : String) (n : Node) : Except Error (Slots ts) :=
    match schema.fill name ⟨s, n⟩ slots with
    | some r => r
    | none => (ofFault n.skim).map fun _ => slots
  schema.finish (← content.walk meet take schema.empty)

/-- The number of elements that an array still holds. -/
def remaining : Items → Nat
  | .item _ rest => remaining rest + 1
  | .last _ => 0

/-- The end of an array that has given up all values that a record wants from it. -/
def endItems (s : Source) (taken : Nat) (rest : Items) : Except Error Unit :=
  match s, rest with
  | .text _, .last .closed => .ok ()
  | .text _, .last .missing => fault .endInList
  | .text _, .last .commaClose => fault .trailingComma
  | .text _, _ => fault .trailingCharacters
  | .buffer, .last _ => .ok ()
  | .buffer, rest =>
    .error (.wrongLength (taken + remaining rest)
      (toString taken ++ (if taken = 1 then " element" else " elements") ++ " in sequence"))

/-- A record: an object with its fields by name, or an array with their values in order. -/
def record {ts : List Type} (title : String) (schema : Schema Part ts) : Reader (Row ts)
  | ⟨s, .object content⟩ => do fields schema (← s.enter) content
  | ⟨s, .array content⟩ => do
    let (row, rest) ← schema.inOrder (nextItem (← s.enter)) (schema.sized title) 0 content
    endItems s schema.size rest
    return row
  | p => .error (p.node.mismatch title)

def table : Reader Dictionary
  | ⟨s, .object content⟩ => do
    let s ← s.enter
    content.walk (fun _ _ => .ok ())
      (fun d name n => do return d.insert name (← text ⟨s, n⟩)) .empty
  | p => .error (p.node.mismatch "a map")

/-- The value beside the name of a choice is null; a part set aside may have an empty object. -/
def unit : Reader Unit
  | ⟨_, .null⟩ => .ok ()
  | ⟨.buffer, .object (.last _)⟩ => .ok ()
  | p => .error (p.node.mismatch "unit")

/-- A choice in the text as an object with one field, the name of the choice. -/
def choiceField {α : Type} (choices : List (String × α)) (s : Source) :
    Fields → Except Error α
  | .field key value rest => do
    let a ← choose choices (← ofFault key.text)
    unit ⟨s, value⟩
    match rest with
    | .last .closed => return a
    | .last .missing => fault .endInObject
    | _ => fault .expectedValue
  | .last (.noColon key atEnd) => do
    let _ ← choose choices (← ofFault key.text)
    fault (colonFault atEnd)
  | .last (.badKey t) => .error (t.node.mismatch "variant identifier")
  | .last .missing => fault .endInValue
  | .last _ => fault .expectedValue

/-- One of several names: the name itself, or an object with null under the name. -/
def choice {α : Type} (choices : List (String × α)) : Reader α
  | ⟨_, .string q⟩ => do choose choices (← ofFault q.text)
  | ⟨.text depth, .object content⟩ => do choiceField choices (← (Source.text depth).enter) content
  | ⟨.text _, .broken .missing⟩ => fault .endInValue
  | ⟨.text _, _⟩ => fault .expectedValue
  | ⟨s, .object (.field key value (.last _))⟩ => do
    let a ← choose choices (← ofFault key.text)
    unit ⟨s, value⟩
    return a
  | ⟨_, .object _⟩ => .error (.wrongValue .map "map with a single key")
  | p => .error (p.node.mismatch "string or map")

/-- What a tagged record holds: its tag if it has been met, and the other fields newest first. -/
structure Tagged (α : Type) where
  tag : Option α
  fields : List (Quoted × Node)

/-- Sets a value aside that is read when the tag is known. -/
def Source.setAside : Source → Node → Except Error Unit
  | .text depth, n => ofFault (n.check depth)
  | _, _ => .ok ()

def setAsideItems (s : Source) (content : Items) : Except Error Unit :=
  match s with
  | .text depth => ofFault (content.check depth)
  | _ => .ok ()

/-- The fields beside the tag `tagName` of an object, set aside. -/
def taggedFields {α : Type} (tagName : String) (choices : List (String × α)) (s : Source)
    (content : Fields) : Except Error (Tagged α) :=
  let meet (t : Tagged α) (name : String) : Except Error Unit :=
    if name = tagName ∧ t.tag.isSome then .error (.repeatedField tagName) else .ok ()
  let take (t : Tagged α) (name : String) (n : Node) : Except Error (Tagged α) :=
    if name = tagName then do
      let a ← choose choices (← textAs "variant identifier" ⟨s, n⟩)
      return { t with tag := some a }
    else (Source.setAside s n).map fun _ => { t with fields := (.ofText name, n) :: t.fields }
  content.walk meet take ⟨none, []⟩

/-- A record whose kind is named by a tag among its fields, or by its first element. The rest of the
record is read once the kind is known. -/
def tagged {α β : Type} (title tagName : String) (choices : List (String × α))
    (body : α → Reader β) : Reader β
  | ⟨s, .object content⟩ => do
    let t ← taggedFields tagName choices (← s.enter) content
    match t.tag with
    | none => .error (.missingField tagName)
    | some a => body a ⟨.buffer, .object (.ofReversed (.last .closed) t.fields)⟩
  | ⟨s, .array content⟩ => do
    let s ← s.enter
    match ← nextItem s content with
    | none => .error (.missingField tagName)
    | some (p, rest) =>
      let a ← choose choices (← textAs "variant identifier" p)
      setAsideItems s rest
      body a ⟨.buffer, .array rest⟩
  | p => .error (p.node.mismatch title)

end Reader

/-- The readers for settings in JSON. -/
def format : Data.Format Part where
  text := Reader.text
  bool := Reader.bool
  count := Reader.count
  choice := Reader.choice
  table := Reader.table
  record := Reader.record

/-- The room for nested containers in a text. -/
def maxDepth : Nat := 128

/-- Reads the one value of a text. -/
def readChars {α : Type} (r : Reader α) (text : List Char) : Except Error α := do
  let d := Document.ofChars text
  let a ← r ⟨.text maxDepth, d.root⟩
  if d.hasMore then fault .trailingCharacters else return a

def read {α : Type} (r : Reader α) (text : String) : Except Error α := readChars r text.toList

end Notifications.Json
