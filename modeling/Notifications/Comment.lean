/-! Messages without text of their own are announced by a comment: the kind of comment in a record
decides which template the notice shows. -/
namespace Notifications

/-- What a record says has happened. -/
inductive CommentKind
  | picture | file | reaction | missedCall | notSupportedYet
  deriving DecidableEq, Repr

/-- What a notice shows for it. -/
inductive CommentTemplate
  | picture | file | reaction | missedCall | notSupported
  deriving DecidableEq, Hashable, Repr

namespace CommentKind

def template : CommentKind → CommentTemplate
  | .picture => .picture
  | .file => .file
  | .reaction => .reaction
  | .missedCall => .missedCall
  | .notSupportedYet => .notSupported

/-- The kinds by the names they have in records. -/
def names : List (String × CommentKind) :=
  [("picture", .picture), ("file", .file), ("reaction", .reaction), ("missed_call", .missedCall),
    ("not_supported_yet", .notSupportedYet)]

def name : CommentKind → String
  | .picture => "picture"
  | .file => "file"
  | .reaction => "reaction"
  | .missedCall => "missed_call"
  | .notSupportedYet => "not_supported_yet"

theorem lookup_name (k : CommentKind) : names.lookup k.name = some k := by
  cases k <;> decide

end CommentKind

namespace CommentTemplate

def all : List CommentTemplate := [.picture, .file, .reaction, .missedCall, .notSupported]

def name : CommentTemplate → String
  | .picture => "picture"
  | .file => "file"
  | .reaction => "reaction"
  | .missedCall => "missed_call"
  | .notSupported => "not_supported"

/-- The templates by the names they have in notices. -/
def names : List (String × CommentTemplate) := all.map fun t => (t.name, t)

theorem lookup_name (t : CommentTemplate) : names.lookup t.name = some t := by
  cases t <;> decide

/-- The key under which the shown text is looked up. -/
def resourceKey : CommentTemplate → String
  | .picture => "notification_shared_picture"
  | .file => "notification_shared_file"
  | .reaction => "notification_reacted"
  | .missedCall => "notification_missed_call"
  | .notSupported => "notification_not_supported_issue"

end CommentTemplate

end Notifications
