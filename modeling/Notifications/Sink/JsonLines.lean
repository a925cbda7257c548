import Notifications.Notice.Json
import Notifications.Pipeline.Basic
import Notifications.Text.Utf8
/-! Notices as lines of bytes: each post is one line with a JSON array of groups. -/
namespace Notifications

/-- A place for bytes, with states of type `ω`. A write takes a part of what it is offered from the
front and says how many bytes that is. -/
structure Writer (ω : Type) where
  write : (offered : List UInt8) → ω → Except IoError { n : Nat // n ≤ offered.length } × ω
  flush : ω → Except IoError Unit × ω

/-- The state of a writer, and all bytes it has taken. -/
structure Output (ω : Type) where
  writer : ω
  bytes : List UInt8

namespace Output

variable {ω : Type}

def start (writer : ω) : Output ω := ⟨writer, []⟩

/-- Offers what is left of `bytes` until all is taken. A writer that takes nothing has failed. -/
def writeAll (w : Writer ω) (bytes : List UInt8) (o : Output ω) : Except IoError Unit × Output ω :=
  if bytes = [] then (.ok (), o)
  else
    match w.write bytes o.writer with
    | (.error e, s) => (.error e, { o with writer := s })
    | (.ok ⟨0, _⟩, s) => (.error (.ofKind .writeZero), { o with writer := s })
    | (.ok ⟨n + 1, _⟩, s) =>
      writeAll w (bytes.drop (n + 1)) ⟨s, o.bytes ++ bytes.take (n + 1)⟩
termination_by bytes.length
decreasing_by simp only [List.length_drop]; omega

def flush (w : Writer ω) (o : Output ω) : Except IoError Unit × Output ω :=
  let (result, s) := w.flush o.writer
  (result, { o with writer := s })

end Output

/-- A reader that is gone is gone for good. -/
def Failure.ofWrite (e : IoError) : Failure :=
  if e.kind = .brokenPipe then .sinkUnavailable e.message else .io e

/-- The line for a post. -/
def jsonLine (groups : List Notice.Group) : List UInt8 :=
  Text.encodeUtf8 ((Json.Node.list (groups.map Notice.Group.node)).chars ++ ['\n'])

namespace Sink

/-- Writes the line for a post and flushes it. -/
def writeLine {ω : Type} (w : Writer ω) (line : List UInt8) (o : Output ω) :
    Except IoError Unit × Output ω :=
  match o.writeAll w line with
  | (.error e, o) => (.error e, o)
  | (.ok (), o) => o.flush w

def jsonLines {ω : Type} (w : Writer ω) : Sink (Output ω) where
  post groups o :=
    match writeLine w (jsonLine groups) o with
    | (.error e, o) => ⟨.error (.ofWrite e), [], o⟩
    | (.ok (), o) =>
      ⟨.ok (),
        [.plain .debug .sink ("Wrote " ++ toString groups.length ++ " notification groups")], o⟩

end Sink

end Notifications
