import Notifications.Settings.Basic
import Notifications.Toml.Document
import Notifications.Toml.Printer
import Notifications.Toml.Reader
/-! Settings as text, in TOML. -/
namespace Notifications.Settings

/-- A line that gives a key its value. -/
def assignmentLine (key : String) (value : List Char) : List Char :=
  Toml.printKey key ++ [' ', '=', ' '] ++ value ++ ['\n']

def headerLine (name : String) : List Char := '[' :: name.toList ++ [']', '\n']

def templateLine (e : String × String) : List Char := assignmentLine e.1 (Toml.printText e.2)

/-- The text of settings whose templates are written in the order of `templates`; nothing if a
number is too large. -/
def textWith (s : Settings) (templates : List (String × String)) : Option (List Char) := do
  let maxMessages ← Toml.printCount? s.assembly.maxMessages
  let maxLength ← Toml.printCount? s.render.maxLength
  let queueDepth ← Toml.printCount? s.output.queueDepth
  return headerLine "assembly" ++
    assignmentLine "max_messages_per_conversation" maxMessages ++
    assignmentLine "keep_empty" (Toml.printBool s.assembly.keepEmpty) ++
    ['\n'] ++ headerLine "render" ++
    assignmentLine "max_body_length" maxLength ++
    ['\n'] ++ headerLine "render.templates" ++
    templates.flatMap templateLine ++
    ['\n'] ++ headerLine "output" ++
    assignmentLine "format" (Toml.printText s.output.format.name) ++
    assignmentLine "queue_depth" queueDepth

/-- The text of settings, with the templates sorted by key. -/
def text (s : Settings) : Except SettingsError (List Char) :=
  match s.textWith s.render.templates.entries with
  | some cs => .ok cs
  | none => .error .tooLarge

/-- Reads settings, without a look at whether they can be used. -/
def ofText (cs : List Char) : Except SettingsError Settings :=
  match Toml.parse cs with
  | none => .error .malformed
  | some v =>
    match reader Toml.format v with
    | .ok s => .ok s
    | .error e => .error (.undecodable e)

end Notifications.Settings
