/-!
TOML values, and tables that are put together from the lines of a text. A table remembers how it
came about, since that decides which later lines may still add to it.
-/
namespace Notifications.Toml

/-- How a table came about: by a header, as the parent of one, by a dotted key, or in braces. -/
inductive Standing
  | headed | implied | dotted | inline
  deriving DecidableEq, Repr

inductive Value
  | text (s : String)
  | integer (n : Int64)
  | float (x : Float)
  | bool (b : Bool)
  /-- A date, a time of day, or both, as written. -/
  | moment (written : String)
  | array (items : List Value)
  | table (standing : Standing) (fields : List (String × Value))
  /-- Tables under one header in double brackets. -/
  | tables (elements : List (List (String × Value)))

abbrev Fields := List (String × Value)

/-- A dotted key: the names before the last one, and the last. -/
structure Key where
  path : List String
  name : String
  deriving DecidableEq, Repr

/-- A key with its value. -/
structure Assignment where
  key : Key
  value : Value

namespace Fields

/-- Gives a key the value that `f` makes of the one it has; a new key comes last. -/
def alter (name : String) (f : Option Value → Option Value) : Fields → Option Fields
  | [] => (f none).map fun v => [(name, v)]
  | (k, v) :: r =>
    if k = name then (f (some v)).map fun v => (k, v) :: r
    else (alter name f r).map ((k, v) :: ·)

/-- Adds a key that must be new. -/
def add (name : String) (v : Value) : Fields → Option Fields :=
  alter name fun
    | none => some v
    | some _ => none

/-- Walks to the table at `path` and changes it by `act`. Tables that are missing on the way are
made; of several tables under one header the last is meant. Dotted keys do not lead into a table
that has its own header, and nothing leads into braces. -/
def within (dotted : Bool) (path : List String) (act : Standing → Fields → Option Fields) :
    Standing → Fields → Option Fields :=
  match path with
  | [] => act
  | name :: path => fun _ => alter name fun
    | none =>
      let standing := if dotted then Standing.dotted else .implied
      (within dotted path act standing []).map (.table standing)
    | some (.table standing fields) =>
      if standing = .inline ∨ (dotted ∧ standing = .headed) then none
      else (within dotted path act standing fields).map (.table standing)
    | some (.tables elements) =>
      match elements.reverse with
      | [] => none
      | last :: others =>
        (within dotted path act .headed last).map fun last => .tables (others.reverse ++ [last])
    | some _ => none

/-- Adds a value under a dotted key. -/
def assign (fields : Fields) (a : Assignment) : Option Fields :=
  within true a.key.path
    (fun standing fields =>
      if a.key.path = [] ∨ standing = .dotted then add a.key.name a.value fields else none)
    .headed fields

def assignAll (fields : Fields) (lines : List Assignment) : Option Fields :=
  lines.foldlM assign fields

end Fields

end Notifications.Toml
