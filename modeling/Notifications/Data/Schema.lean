import Notifications.Data.Dictionary
import Notifications.Data.Error
/-!
Records described by their fields. One description serves both written forms of a record: named
fields in any order, and bare values in the order of the fields.
-/
namespace Notifications.Data

/-- One field: how its value is read from a `ν`, and the value it has when it is left out. -/
structure Field (ν α : Type) where
  name : String
  read : ν → Except Error α
  absent : Option α

def Field.required {ν α : Type} (name : String) (read : ν → Except Error α) : Field ν α :=
  ⟨name, read, none⟩

def Field.withDefault {ν α : Type} (name : String) (read : ν → Except Error α) (value : α) :
    Field ν α :=
  ⟨name, read, some value⟩

/-- The fields of a record in order, with the types of their values. -/
inductive Schema (ν : Type) : List Type → Type 1
  | done : Schema ν []
  | field {α : Type} {ts : List Type} (f : Field ν α) (rest : Schema ν ts) : Schema ν (α :: ts)

/-- The values of all fields. -/
def Row : List Type → Type
  | [] => Unit
  | α :: ts => α × Row ts

/-- The values of the fields met so far. -/
def Slots : List Type → Type
  | [] => Unit
  | α :: ts => Option α × Slots ts

namespace Schema

variable {ν σ : Type}

def size {ts : List Type} : Schema ν ts → Nat
  | done => 0
  | field _ rest => rest.size + 1

def empty {ts : List Type} : Schema ν ts → Slots ts
  | done => ()
  | field _ rest => (none, rest.empty)

/-- The field `name` has been met. -/
def isFilled {ts : List Type} : Schema ν ts → String → Slots ts → Bool
  | done, _, _ => false
  | field f rest, name, (slot, slots) =>
    if f.name = name then slot.isSome else rest.isFilled name slots

/-- Reads the value of the field `name`; nothing if there is no such field. -/
def fill {ts : List Type} : Schema ν ts → String → ν → Slots ts → Option (Except Error (Slots ts))
  | done, _, _, _ => none
  | field f rest, name, v, (slot, slots) =>
    if f.name = name then some ((f.read v).map fun a => (some a, slots))
    else (rest.fill name v slots).map fun r => r.map fun slots => (slot, slots)

/-- The values of all fields once no more are to come. -/
def finish {ts : List Type} : Schema ν ts → Slots ts → Except Error (Row ts)
  | done, _ => .ok ()
  | field f rest, (slot, slots) =>
    match slot <|> f.absent with
    | none => .error (.missingField f.name)
    | some a => (rest.finish slots).map fun row => (a, row)

/-- Reads the fields in order from a source of values; `index` counts the fields before. When the
source is exhausted the fields that are left take their defaults. -/
def inOrder {ts : List Type} (next : σ → Except Error (Option (ν × σ))) (wanted : String) :
    Schema ν ts → Nat → σ → Except Error (Row ts × σ)
  | done, _, s => .ok ((), s)
  | field f rest, index, s => do
    match ← next s with
    | some (v, s) =>
      let a ← f.read v
      let (row, s) ← rest.inOrder next wanted (index + 1) s
      return ((a, row), s)
    | none =>
      match f.absent with
      | none => .error (.wrongLength index wanted)
      | some a =>
        let (row, s) ← rest.inOrder next wanted (index + 1) s
        return ((a, row), s)

/-- "struct Name with 2 elements" -/
def sized {ts : List Type} (s : Schema ν ts) (title : String) : String :=
  title ++ " with " ++ toString s.size ++ (if s.size = 1 then " element" else " elements")

end Schema

/-- The readers that every format of structured data has: for the types a setting can have, and for
records with any schema. -/
structure Format (ν : Type) where
  text : ν → Except Error String
  bool : ν → Except Error Bool
  count : ν → Except Error UInt64
  choice : {α : Type} → List (String × α) → ν → Except Error α
  /-- Texts by name; of two with one name the later stays. -/
  table : ν → Except Error Dictionary
  record : {ts : List Type} → String → Schema ν ts → ν → Except Error (Row ts)

end Notifications.Data
