import Notifications.Data.Schema
import Notifications.Decimal.Shortest
import Notifications.Toml.Value
/-! Reading settings from TOML. -/
namespace Notifications.Toml

open Data (Dictionary Error Found Row Schema Slots choose)

/-- A double as it is named in complaints: without an exponent. -/
def floatText (x : Float) : String :=
  if x.isNaN then "NaN.0"
  else
    let sign := if x.toBits >>> 63 = 0 then "" else "-"
    if x.isInf then sign ++ "inf.0"
    else if x == 0 then sign ++ "0.0"
    else sign ++ (Decimal.shortest x).plain

namespace Value

def found : Value → Found
  | text s => .text s
  | integer n => .integer n.toInt
  | float x => .float (floatText x)
  | bool b => .bool b
  | array _ | tables _ => .sequence
  | moment _ | table _ _ => .map

/-- The kind of a value as it is named where a table is wanted. -/
def kindName : Value → String
  | text _ => "string"
  | integer _ => "integer"
  | float _ => "float"
  | bool _ => "boolean"
  | moment _ => "datetime"
  | array _ => "array"
  | tables _ => "array of tables"
  | table .inline _ => "inline table"
  | table _ _ => "table"

def mismatch (wanted : String) (v : Value) : Error := .wrongType v.found wanted

/-- A moment reads as a table with one field, its text, under this name. -/
def momentField : String := "$__toml_private_datetime"

/-- The fields of a value that reads as a table. -/
def fields? : Value → Option Fields
  | table _ fields => some fields
  | moment written => some [(momentField, .text written)]
  | _ => none

/-- The elements of a value that reads as a list. -/
def elements? : Value → Option (List Value)
  | array items => some items
  | tables elements => some (elements.map (.table .headed))
  | _ => none

def readText : Value → Except Error String
  | text s => .ok s
  | v => .error (v.mismatch "a string")

def readBool : Value → Except Error Bool
  | bool b => .ok b
  | v => .error (v.mismatch "a boolean")

def readCount : Value → Except Error UInt64
  | integer n => if 0 ≤ n then .ok n.toUInt64 else .error (.wrongValue (.integer n.toInt) "usize")
  | v => .error (v.mismatch "usize")

/-- The value under the name of a choice is an empty table or array. -/
def readUnit : Value → Except Error Unit
  | table _ [] | array [] | tables [] => .ok ()
  | table _ _ => .error (.other "expected empty table")
  | array _ | tables _ => .error (.other "expected empty array")
  | v => .error (.other ("expected table, found " ++ v.kindName))

/-- One of several names: the name itself, or a table with one field of that name. -/
def readChoice {α : Type} (choices : List (String × α)) : Value → Except Error α
  | text s => choose choices s
  | table _ [] => .error (.other "wanted exactly 1 element, found 0 elements")
  | table _ [(name, v)] => do
    let a ← choose choices name
    v.readUnit
    return a
  | table _ _ => .error (.other "wanted exactly 1 element, more than 1 element")
  | _ => .error (.other "wanted string or table")

def readTable (v : Value) : Except Error Dictionary :=
  match v.fields? with
  | some fields => fields.foldlM (fun d (name, v) => do return d.insert name (← v.readText)) .empty
  | none => .error (v.mismatch "a map")

def readFields {ts : List Type} (schema : Schema Value ts) (fields : Fields) :
    Except Error (Row ts) := do
  let take (slots : Slots ts) : String × Value → Except Error (Slots ts)
    | (name, v) => (schema.fill name v slots).getD (.ok slots)
  schema.finish (← fields.foldlM take schema.empty)

def nextElement : List Value → Except Error (Option (Value × List Value))
  | [] => .ok none
  | v :: r => .ok (some (v, r))

/-- A record: a table with its fields by name, or a list that begins with their values in order. -/
def readRecord {ts : List Type} (title : String) (schema : Schema Value ts) (v : Value) :
    Except Error (Row ts) :=
  match v.fields?, v.elements? with
  | some fields, _ => readFields schema fields
  | none, some elements => (schema.inOrder nextElement (schema.sized title) 0 elements).map (·.1)
  | none, none => .error (v.mismatch title)

end Value

/-- The readers for settings in TOML. -/
def format : Data.Format Value where
  text := Value.readText
  bool := Value.readBool
  count := Value.readCount
  choice := Value.readChoice
  table := Value.readTable
  record := Value.readRecord

end Notifications.Toml
