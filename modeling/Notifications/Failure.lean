import Notifications.Data.Error
/-! What can go wrong around notices: reading records, writing output, settings, a stopped
pipeline. -/
namespace Notifications

inductive IoKind
  | brokenPipe | notFound | permissionDenied | unexpectedEnd | timedOut | connectionReset
  | writeZero | other
  /-- A kind that is told apart by its description only. -/
  | named (description : String)
  deriving DecidableEq, Repr

def IoKind.message : IoKind → String
  | .brokenPipe => "broken pipe"
  | .notFound => "entity not found"
  | .permissionDenied => "permission denied"
  | .unexpectedEnd => "unexpected end of file"
  | .timedOut => "timed out"
  | .connectionReset => "connection reset"
  | .writeZero => "write zero"
  | .other => "other error"
  | .named description => description

/-- An error of input or output; without a text of its own it shows its kind. -/
structure IoError where
  kind : IoKind
  text : Option String
  deriving DecidableEq, Repr

def IoError.ofKind (kind : IoKind) : IoError := ⟨kind, none⟩

def IoError.message (e : IoError) : String := e.text.getD e.kind.message

inductive Failure
  | io (e : IoError)
  | json (e : Data.Error)
  | sink (text : String)
  | sinkUnavailable (text : String)
  | configuration (text : String)
  | closed
  deriving DecidableEq, Repr

namespace Failure

def message : Failure → String
  | io e => "IO error: " ++ e.message
  | json e => "JSON error: " ++ e.message
  | sink text => "Sink error: " ++ text
  | sinkUnavailable text => "Sink unavailable: " ++ text
  | configuration text => "Configuration error: " ++ text
  | closed => "Pipeline closed"

/-- What is said to the user. -/
def userMessage : Failure → String
  | io e => "I/O error: " ++ e.message ++ "."
  | json e => "Data format error: " ++ e.message ++ "."
  | sink text => "Could not post notifications: " ++ text ++ ". Will retry on next update."
  | sinkUnavailable text => "Notification service unavailable: " ++ text ++ "."
  | configuration text => "Configuration error: " ++ text ++ ". Check your settings."
  | closed => "Notification updates stopped. No further notifications will be shown."

/-- The pipeline carries on after it. -/
def isRecoverable : Failure → Bool
  | io _ | json _ | sink _ => true
  | sinkUnavailable _ | configuration _ | closed => false

end Failure

end Notifications
