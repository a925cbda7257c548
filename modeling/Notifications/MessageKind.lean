/-! The five kinds of message, which records and notices name alike. -/
namespace Notifications

inductive MessageKind
  | text | comment | knock | connectionRequest | conversationDeleted
  deriving DecidableEq, Repr

namespace MessageKind

def all : List MessageKind := [.text, .comment, .knock, .connectionRequest, .conversationDeleted]

def name : MessageKind → String
  | .text => "text"
  | .comment => "comment"
  | .knock => "knock"
  | .connectionRequest => "connection_request"
  | .conversationDeleted => "conversation_deleted"

/-- The kind as it is called in complaints about the length of an array. -/
def title : MessageKind → String
  | .text => "Text"
  | .comment => "Comment"
  | .knock => "Knock"
  | .connectionRequest => "ConnectionRequest"
  | .conversationDeleted => "ConversationDeleted"

def names : List (String × MessageKind) := all.map fun k => (k.name, k)

theorem lookup_name (k : MessageKind) : names.lookup k.name = some k := by
  cases k <;> decide

end MessageKind

end Notifications
