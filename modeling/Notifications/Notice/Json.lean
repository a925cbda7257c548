import Notifications.Json.Printer
import Notifications.Json.Reader
import Notifications.MessageKind
import Notifications.Notice
/-! Notices in JSON. The schemas name the fields in the order in which they are written. -/
namespace Notifications

open Json (Node Part Reader)
open Data (Field Schema)

namespace CommentTemplate

def reader : Reader CommentTemplate := Reader.choice names

def node (t : CommentTemplate) : Node := .ofText t.name

end CommentTemplate

namespace Notice

/-- A picture as the field `image`, left out if there is none. -/
def imageField (image : Option (List UInt8)) : List (String × Node) :=
  match image with
  | none => []
  | some bytes => [("image", .list (bytes.map fun b => .ofInt b.toNat))]

def imageSchemaField : Field Part (Option (List UInt8)) :=
  .withDefault "image" (Reader.optional Reader.bytes) none

namespace Author

def schema : Schema Part [String, Option (List UInt8)] :=
  .field (.required "name" Reader.text) <| .field imageSchemaField .done

def reader : Reader Author := fun p => do
  let (name, image, ()) ← Reader.record "struct NotificationAuthor" schema p
  return ⟨name, image⟩

def node (a : Author) : Node := .record (("name", .ofText a.name) :: imageField a.image)

end Author

namespace Message

def authorField : Field Part Author := .required "author" Author.reader

def timeField : Field Part Int64 := .required "time" Reader.int64

def textSchema : Schema Part [Author, Int64, String, Bool] :=
  .field authorField <| .field timeField <|
  .field (.required "text" Reader.text) <|
  .field (.required "is_quoting_self_user" Reader.bool) .done

def commentSchema : Schema Part [Author, Int64, CommentTemplate] :=
  .field authorField <| .field timeField <|
  .field (.required "template" CommentTemplate.reader) .done

def requestSchema : Schema Part [Author, Int64, String] :=
  .field authorField <| .field timeField <| .field (.required "author_id" Reader.text) .done

/-- The schema of the kinds that say all by their name. -/
def bareSchema : Schema Part [Author, Int64] := .field authorField <| .field timeField .done

def bodyReader (kind : MessageKind) : Reader Message := fun p => do
  let title := "struct variant NotificationMessage::" ++ kind.title
  match kind with
  | .text =>
    let (author, time, body, quotesSelf, ()) ← Reader.record title textSchema p
    return ⟨author, time, .text body quotesSelf⟩
  | .comment =>
    let (author, time, template, ()) ← Reader.record title commentSchema p
    return ⟨author, time, .comment template⟩
  | .knock =>
    let (author, time, ()) ← Reader.record title bareSchema p
    return ⟨author, time, .knock⟩
  | .connectionRequest =>
    let (author, time, sender, ()) ← Reader.record title requestSchema p
    return ⟨author, time, .connectionRequest sender⟩
  | .conversationDeleted =>
    let (author, time, ()) ← Reader.record title bareSchema p
    return ⟨author, time, .conversationDeleted⟩

def reader : Reader Message :=
  Reader.tagged "internally tagged enum NotificationMessage" "type" MessageKind.names bodyReader

def node (m : Message) : Node :=
  let common := [("author", m.author.node), ("time", Node.ofInt m.time.toInt)]
  let tag (kind : MessageKind) : String × Node := ("type", .ofText kind.name)
  .record <|
    match m.content with
    | .text body quotesSelf => tag .text :: common ++
      [("text", .ofText body), ("is_quoting_self_user", .bool quotesSelf)]
    | .comment template => tag .comment :: common ++ [("template", template.node)]
    | .knock => tag .knock :: common
    | .connectionRequest sender =>
      tag .connectionRequest :: common ++ [("author_id", .ofText sender)]
    | .conversationDeleted => tag .conversationDeleted :: common

end Message

namespace Group

def schema : Schema Part [String, String, Option (List UInt8), List Message, Bool, Int64] :=
  .field (.required "id" Reader.text) <|
  .field (.required "name" Reader.text) <|
  .field imageSchemaField <|
  .field (.required "messages" (Reader.list Message.reader)) <|
  .field (.required "is_one_to_one_conversation" Reader.bool) <|
  .field (.required "last_message_time" Reader.int64) .done

def reader : Reader Group := fun p => do
  let (id, name, image, messages, oneToOne, lastTime, ()) ←
    Reader.record "struct NotificationConversation" schema p
  return ⟨id, name, image, messages, oneToOne, lastTime⟩

def node (g : Group) : Node :=
  .record <| [("id", .ofText g.id), ("name", .ofText g.name)] ++ imageField g.image ++
    [("messages", .list (g.messages.map Message.node)),
      ("is_one_to_one_conversation", .bool g.oneToOne),
      ("last_message_time", .ofInt g.lastTime.toInt)]

end Group

end Notice

end Notifications
