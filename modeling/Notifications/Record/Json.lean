import Notifications.Json.Printer
import Notifications.Json.Reader
import Notifications.MessageKind
import Notifications.Record
/-! Records in JSON. The schemas name the fields in the order in which they are written. -/
namespace Notifications

open Json (Node Part Reader)
open Data (Field Schema)

namespace FederatedId

def schema : Schema Part [String, String] :=
  .field (.required "value" Reader.text) <|
  .field (.withDefault "domain" Reader.text "") .done

def reader : Reader FederatedId := fun p => do
  let (value, domain, ()) ← Reader.record "struct QualifiedId" schema p
  return ⟨value, domain⟩

def node (id : FederatedId) : Node :=
  .record [("value", .ofText id.value), ("domain", .ofText id.domain)]

end FederatedId

namespace CommentKind

def reader : Reader CommentKind := Reader.choice names

def node (k : CommentKind) : Node := .ofText k.name

end CommentKind

namespace Record

namespace Author

def schema : Schema Part [String, Option String] :=
  .field (.required "name" Reader.text) <|
  .field (.withDefault "image_asset" (Reader.optional Reader.text) none) .done

def reader : Reader Author := fun p => do
  let (name, imageAsset, ()) ← Reader.record "struct LocalAuthor" schema p
  return ⟨name, imageAsset⟩

def node (a : Author) : Node :=
  .record <| ("name", .ofText a.name) ::
    (match a.imageAsset with
    | none => []
    | some asset => [("image_asset", .ofText asset)])

end Author

def Time.reader : Reader Time := fun p => do
  let ms ← Reader.integer "a unix timestamp in milliseconds" p
  match Time.ofInt? ms with
  | some t => return t
  | none => .error (.illegalTime ms)

namespace Message

def authorField : Field Part Author := .required "author" Author.reader

def timeField : Field Part Time := .required "time" Time.reader

def textSchema : Schema Part [Author, Time, String, Bool] :=
  .field authorField <| .field timeField <|
  .field (.required "text" Reader.text) <|
  .field (.withDefault "is_quoting_self_user" Reader.bool false) .done

def commentSchema : Schema Part [Author, Time, CommentKind] :=
  .field authorField <| .field timeField <|
  .field (.required "comment_kind" CommentKind.reader) .done

def requestSchema : Schema Part [Author, Time, FederatedId] :=
  .field authorField <| .field timeField <|
  .field (.required "author_id" FederatedId.reader) .done

/-- The schema of the kinds that say all by their name. -/
def bareSchema : Schema Part [Author, Time] := .field authorField <| .field timeField .done

def bodyReader (kind : MessageKind) : Reader Message := fun p => do
  let title := "struct variant LocalMessage::" ++ kind.title
  match kind with
  | .text =>
    let (author, time, body, quotesSelf, ()) ← Reader.record title textSchema p
    return ⟨author, time, .text body quotesSelf⟩
  | .comment =>
    let (author, time, kind, ()) ← Reader.record title commentSchema p
    return ⟨author, time, .comment kind⟩
  | .knock =>
    let (author, time, ()) ← Reader.record title bareSchema p
    return ⟨author, time, .knock⟩
  | .connectionRequest =>
    let (author, time, sender, ()) ← Reader.record title requestSchema p
    return ⟨author, time, .connectionRequest sender⟩
  | .conversationDeleted =>
    let (author, time, ()) ← Reader.record title bareSchema p
    return ⟨author, time, .conversationDeleted⟩

def reader : Reader Message :=
  Reader.tagged "internally tagged enum LocalMessage" "kind" MessageKind.names bodyReader

def node (m : Message) : Node :=
  let common := [("author", m.author.node), ("time", Node.ofInt m.time.ms.toInt)]
  let tag (kind : MessageKind) : String × Node := ("kind", .ofText kind.name)
  .record <|
    match m.content with
    | .text body quotesSelf => tag .text :: common ++
      [("text", .ofText body), ("is_quoting_self_user", .bool quotesSelf)]
    | .comment kind => tag .comment :: common ++ [("comment_kind", kind.node)]
    | .knock => tag .knock :: common
    | .connectionRequest sender => tag .connectionRequest :: common ++ [("author_id", sender.node)]
    | .conversationDeleted => tag .conversationDeleted :: common

end Message

namespace Conversation

def schema : Schema Part [FederatedId, String, Bool, List Message] :=
  .field (.required "id" FederatedId.reader) <|
  .field (.required "conversation_name" Reader.text) <|
  .field (.withDefault "is_one_to_one_conversation" Reader.bool false) <|
  .field (.withDefault "messages" (Reader.list Message.reader) []) .done

def reader : Reader Conversation := fun p => do
  let (id, name, oneToOne, messages, ()) ← Reader.record "struct LocalConversation" schema p
  return ⟨id, name, oneToOne, messages⟩

def node (c : Conversation) : Node :=
  .record [("id", c.id.node), ("conversation_name", .ofText c.name),
    ("is_one_to_one_conversation", .bool c.oneToOne),
    ("messages", .list (c.messages.map Message.node))]

end Conversation

end Record

namespace Batch

def reader : Reader Batch := Reader.list Record.Conversation.reader

def node (b : Batch) : Node := .list (b.map Record.Conversation.node)

end Batch

end Notifications
