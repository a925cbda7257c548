import Notifications.Record
/-! What a platform is given to show: one group for a conversation, its messages oldest first. -/
namespace Notifications.Notice

structure Author where
  name : String
  image : Option (List UInt8)
  deriving DecidableEq, Hashable, Repr

inductive Content
  | text (body : String) (quotesSelf : Bool)
  | comment (template : CommentTemplate)
  | knock
  | connectionRequest (sender : String)
  | conversationDeleted
  deriving DecidableEq, Hashable, Repr

/-- The time is in milliseconds since the epoch. -/
structure Message where
  author : Author
  time : Int64
  content : Content
  deriving DecidableEq, Hashable, Repr

structure Group where
  id : String
  name : String
  image : Option (List UInt8)
  messages : List Message
  oneToOne : Bool
  /-- The time of the last activity; zero stands for a conversation without messages. -/
  lastTime : Int64
  deriving DecidableEq, Repr

end Notifications.Notice

namespace Notifications.Record

/-- Pictures are not looked up, so the author has none. -/
def Author.notice (a : Author) : Notice.Author := ⟨a.name, none⟩

def Content.notice : Content → Notice.Content
  | .text body quotesSelf => .text body quotesSelf
  | .comment kind => .comment kind.template
  | .knock => .knock
  | .connectionRequest sender => .connectionRequest sender.display
  | .conversationDeleted => .conversationDeleted

def Message.notice (m : Message) : Notice.Message := ⟨m.author.notice, m.time.ms, m.content.notice⟩

end Notifications.Record

namespace Notifications.Notice

/-- Oldest first; messages of one time stay in their order. -/
def byTime (messages : List Message) : List Message :=
  messages.mergeSort fun a b => a.time ≤ b.time

/-- The latest of some times, and zero if there are none. -/
def latest : List Int64 → Int64
  | [] => 0
  | t :: ts => ts.foldl max t

end Notifications.Notice

namespace Notifications.Record

/-- The group of one record. -/
def Conversation.group (c : Conversation) : Notice.Group where
  id := c.id.display
  name := c.name
  image := none
  messages := Notice.byTime (c.messages.map Message.notice)
  oneToOne := c.oneToOne
  lastTime := Notice.latest (c.messages.map (·.time.ms))

end Notifications.Record
