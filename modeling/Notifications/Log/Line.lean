import Notifications.Json.Printer
import Notifications.Log
import Notifications.Text.Quoted
/-! Events as lines of the log, in plain text or in JSON. -/
namespace Notifications

/-- Control characters that terminals act on are spelled out. -/
def shownInLog (c : Char) : String :=
  if c = '\x1b' ∨ c = '\x07' ∨ c = '\x08' ∨ c = '\x0c' ∨ c = '\x7f' then
    "\\x" ++ (if c.toNat < 16 then "0" else "") ++ Text.hexDigits c.toNat
  else if 0x80 ≤ c.toNat ∧ c.toNat ≤ 0x9f then "\\u\x7b" ++ Text.hexDigits c.toNat ++ "\x7d"
  else c.toString

namespace Event

/-- The message with the fields behind it. -/
def text (e : Event) : String :=
  String.join (e.message.toList.map shownInLog) ++
    (e.group.map (" group=" ++ ·)).getD "" ++
    (e.time.map fun t => " when=" ++ toString t.toInt).getD ""

def fieldsNode (e : Event) : Json.Node :=
  .record <| ("message", .ofText e.message) ::
    e.group.toList.map (fun g => ("group", Json.Node.ofText g)) ++
    e.time.toList.map (fun t => ("when", Json.Node.ofInt t.toInt))

/-- The level stands at the right of five places. -/
def line (e : Event) : String :=
  (if e.level.label.length < 5 then " " else "") ++ e.level.label ++ " " ++
    e.origin.target ++ ": " ++ e.text

def node (e : Event) : Json.Node :=
  .record [("level", .ofText e.level.label), ("fields", e.fieldsNode),
    ("target", .ofText e.origin.target)]

end Event

end Notifications
