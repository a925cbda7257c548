import Notifications.Notice
import Notifications.Render.Templates
/-! Notices as text: a title, and one line for each message. -/
namespace Notifications.Render

/-- The parts of a template between the places where the quoted text goes. -/
def parts : List Char → List (List Char)
  | [] => [[]]
  | '{' :: 't' :: 'e' :: 'x' :: 't' :: '}' :: r => [] :: parts r
  | c :: r =>
    match parts r with
    | [] => [[c]]
    | p :: ps => (c :: p) :: ps

/-- A text quoted in a template; a template without a place for it comes before it. -/
def quote (template body : String) : String :=
  match parts template.toList with
  | [] | [_] => template ++ " " ++ body
  | ps => String.ofList (body.toList.intercalate ps)

/-- The first `limit` characters of a text that is longer, and an ellipsis. -/
def truncate (limit : Nat) (s : String) : String :=
  if limit = 0 ∨ s.length ≤ limit then s else String.ofList (s.toList.take limit) ++ "..."

structure Line where
  sender : String
  text : String
  time : Int64
  deriving DecidableEq, Repr

structure Shown where
  /-- The id by which a later notice replaces this one. -/
  key : String
  title : String
  time : Int64
  isGroup : Bool
  /-- Oldest first. -/
  lines : List Line
  deriving DecidableEq, Repr

/-- The whole text of a message, before it is cut. -/
def fullText (t : Templates) : Notice.Content → String
  | .text body true => quote (t.text quotingSelfKey) body
  | .text body false => body
  | .comment template => t.text template.resourceKey
  | .knock => t.text knockKey
  | .connectionRequest _ => t.text connectionRequestKey
  | .conversationDeleted => t.text conversationDeletedKey

namespace Style

def line (s : Style) (m : Notice.Message) : Line :=
  ⟨m.author.name, truncate s.maxLength.toNat (fullText ⟨s.templates⟩ m.content), m.time⟩

def render (s : Style) (g : Notice.Group) : Shown :=
  ⟨g.id, g.name, g.lastTime, !g.oneToOne, g.messages.map s.line⟩

end Style

/-- The newest line by itself, with its sender where there may be several. -/
def Shown.summary (n : Shown) : Option String :=
  n.lines.getLast?.map fun line =>
    if n.isGroup then line.sender ++ ": " ++ line.text else line.text

end Notifications.Render
