import Notifications.Json.Fault
import Notifications.Text.Quoted
/-!
Why structured data cannot be read as a value: the text is malformed, or it is well formed and does
not describe the value that is wanted.
-/
namespace Notifications.Data

/-- What stands where something else is wanted. -/
inductive Found
  | null
  | bool (b : Bool)
  | integer (n : Int)
  | float (shown : String)
  | text (s : String)
  | sequence
  | map
  deriving DecidableEq, Repr

def Found.description : Found → String
  | .null => "null"
  | .bool b => "boolean `" ++ (if b then "true" else "false") ++ "`"
  | .integer n => "integer `" ++ toString n ++ "`"
  | .float shown => "floating point `" ++ shown ++ "`"
  | .text s => "string " ++ Text.quoted s
  | .sequence => "sequence"
  | .map => "map"

inductive Error
  | malformed (fault : Json.Fault)
  | wrongType (found : Found) (wanted : String)
  | wrongValue (found : Found) (wanted : String)
  | wrongLength (length : Nat) (wanted : String)
  | missingField (name : String)
  | repeatedField (name : String)
  | unknownChoice (name : String) (choices : List String)
  | illegalTime (ms : Int)
  | other (text : String)
  deriving DecidableEq, Repr

/-- Names the choices that are open: "`a`", "`a` or `b`", "one of `a`, `b`, `c`". -/
def listChoices (choices : List String) : String :=
  match choices.map fun c => "`" ++ c ++ "`" with
  | [] => "nothing"
  | [a] => a
  | [a, b] => a ++ " or " ++ b
  | names => "one of " ++ ", ".intercalate names

def Error.message : Error → String
  | .malformed fault => fault.message
  | .wrongType found wanted => "invalid type: " ++ found.description ++ ", expected " ++ wanted
  | .wrongValue found wanted => "invalid value: " ++ found.description ++ ", expected " ++ wanted
  | .wrongLength length wanted => "invalid length " ++ toString length ++ ", expected " ++ wanted
  | .missingField name => "missing field `" ++ name ++ "`"
  | .repeatedField name => "duplicate field `" ++ name ++ "`"
  | .unknownChoice name choices =>
    "unknown variant `" ++ name ++ "`, expected " ++ listChoices choices
  | .illegalTime ms => "value is not a legal timestamp: " ++ toString ms
  | .other text => text

/-- Finds a choice by its name. -/
def choose {α : Type} (choices : List (String × α)) (name : String) : Except Error α :=
  match choices.lookup name with
  | some a => .ok a
  | none => .error (.unknownChoice name (choices.map (·.1)))

end Notifications.Data
