import Notifications.Log
import Notifications.Record.Json
import Notifications.Text.Blank
import Notifications.Text.Utf8
/-!
Batches as they arrive: one JSON text a line. Blank lines are passed over, a line that is no batch
is skipped with a warning, and the input ends at a line that is no text.
-/
namespace Notifications

/-- What a line brings, with the number of the line where it brings no batch. -/
inductive Feed
  | batch (b : Batch)
  | malformed (line : Nat) (e : Data.Error)
  | stopped (line : Nat) (reason : String)

namespace Feed

/-- The lines of an input, each with the newline that ends it. -/
def lines : List UInt8 → List (List UInt8)
  | [] => []
  | b :: r =>
    if b = 10 then [b] :: lines r
    else
      match lines r with
      | [] => [[b]]
      | l :: ls => (b :: l) :: ls

theorem flatten_lines (input : List UInt8) : (lines input).flatten = input := by
  induction input with
  | nil => rfl
  | cons b r ih =>
    simp only [lines]
    split
    · simp [ih]
    · split
      · rename_i h
        simpa [h] using ih
      · rename_i l ls h
        simpa [h] using ih

/-- Reads a line of text; nothing if it is blank. The newline goes with the white space. -/
def ofText (number : Nat) (text : List Char) : Option Feed :=
  match Text.trim text with
  | [] => none
  | text =>
    match Json.readChars Batch.reader text with
    | .ok b => some (.batch b)
    | .error e => some (.malformed number e)

/-- Reads lines, the first of which has the number `number`. -/
def ofLines (number : Nat) : List (List UInt8) → List Feed
  | [] => []
  | l :: ls =>
    match Text.decodeUtf8 0 l with
    | .error f => [.stopped number f.message]
    | .ok text => (ofText number text).toList ++ ofLines (number + 1) ls

def ofBytes (input : List UInt8) : List Feed := ofLines 1 (lines input)

/-- An input that cannot be read at all. -/
def unreadable (reason : String) : List Feed := [.stopped 1 reason]

def batch? : Feed → Option Batch
  | batch b => some b
  | _ => none

def batches (feed : List Feed) : List Batch := feed.filterMap batch?

def warning? : Feed → Option String
  | batch _ => none
  | malformed line e =>
    some ("Skipping malformed batch on line " ++ toString line ++ ": " ++ e.message)
  | stopped line reason =>
    some ("Stopped reading input at line " ++ toString line ++ ": " ++ reason)

def warnings (feed : List Feed) : List String := feed.filterMap warning?

def events (feed : List Feed) : List Event := (warnings feed).map (.plain .warn .input)

end Feed

end Notifications
