import Notifications.Comment
import Notifications.Data.Schema
import Notifications.Failure
import Notifications.Text.Utf8
/-! The texts that stand for messages without text, by the key they are looked up under. -/
namespace Notifications.Render

open Data (Dictionary Error Format Schema)

def knockKey : String := "notification_knock"

def connectionRequestKey : String := "notification_connection_request"

def conversationDeletedKey : String := "notification_conversation_deleted"

def quotingSelfKey : String := "notification_quoting_self"

/-- The texts in use unless others are set. -/
def defaultTexts : List (String × String) :=
  [(CommentTemplate.picture.resourceKey, "Shared a picture"),
    (CommentTemplate.file.resourceKey, "Shared a file"),
    (CommentTemplate.reaction.resourceKey, "Reacted to your message"),
    (CommentTemplate.missedCall.resourceKey, "Missed call"),
    (CommentTemplate.notSupported.resourceKey, "Sent a message that can't be displayed"),
    (knockKey, "Pinged"),
    (connectionRequestKey, "Wants to connect"),
    (conversationDeletedKey, "Deleted the conversation"),
    (quotingSelfKey, "Replied to you: \x7btext\x7d")]

/-- The texts with some of them replaced. -/
structure Templates where
  overrides : Dictionary
  deriving DecidableEq

namespace Templates

def default : Templates := ⟨.empty⟩

def find? (t : Templates) (key : String) : Option String :=
  t.overrides.get? key <|> defaultTexts.lookup key

/-- The text for a key; a key without one is shown itself. -/
def text (t : Templates) (key : String) : String := (t.find? key).getD key

def hasKey (t : Templates) (key : String) : Bool := (t.find? key).isSome

end Templates

/-- Messages are shown with the text of such a key. -/
def isKnownKey (key : String) : Bool := Templates.default.hasKey key

def unknownKeys (keys : List String) : List String := keys.filter fun key => !isKnownKey key

/-- Refuses keys that no message is shown with. They come in any order and are named in that of
their bytes. -/
def checkKeys (keys : List String) : Except Failure Unit :=
  match unknownKeys keys with
  | [] => .ok ()
  | unknown =>
    .error (.configuration
      ("unknown template keys: " ++ ", ".intercalate (Text.sortByBytes unknown)))

/-- How notices are shown. -/
structure Style where
  /-- The most characters a line has; zero stands for no limit. -/
  maxLength : UInt64
  /-- Texts that replace others, by key. -/
  templates : Dictionary
  deriving DecidableEq

namespace Style

def default : Style := ⟨200, .empty⟩

def schema {ν : Type} (f : Format ν) : Schema ν [UInt64, Dictionary] :=
  .field (.withDefault "max_body_length" f.count default.maxLength) <|
  .field (.withDefault "templates" f.table default.templates) .done

def reader {ν : Type} (f : Format ν) (v : ν) : Except Error Style := do
  let (maxLength, templates, ()) ← f.record "struct RenderConfig" (schema f) v
  return ⟨maxLength, templates⟩

/-- Refuses texts for keys that no message is shown with. -/
def validate (s : Style) : Except Failure Unit := checkKeys s.templates.names

end Style

end Notifications.Render
