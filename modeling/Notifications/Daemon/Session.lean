import Notifications.Feed
import Notifications.Files
import Notifications.Pipeline.Channel
import Notifications.Settings.Basic
import Notifications.Sink.JsonLines
import Notifications.Sink.Rendered
/-! A pipeline beside the reading of its feed: the two take turns in any order. -/
namespace Notifications.Daemon

/-- The standard output takes everything, unless its reader is gone. -/
def standardOutput (hasReader : Bool) : Writer Unit where
  write offered _ :=
    if hasReader then (.ok ⟨offered.length, Nat.le_refl _⟩, ())
    else (.error ⟨.brokenPipe, some FileError.brokenPipe.message⟩, ())
  flush _ :=
    if hasReader then (.ok (), ())
    else (.error ⟨.brokenPipe, some FileError.brokenPipe.message⟩, ())

/-- The part of the feed that is read when the submit of the batch behind `accepted` others
fails. -/
def readUpTo : (accepted : Nat) → List Feed → List Feed
  | _, [] => []
  | 0, .batch b :: _ => [.batch b]
  | n + 1, .batch b :: r => .batch b :: readUpTo n r
  | n, f :: r => f :: readUpTo n r

/-- What the reading loop logs: warnings about the feed, and that the pipeline takes no more. -/
def readingEvents {σ : Type} (feed : List Feed) (c : Channel σ) : List Event :=
  if c.submits.all (·.isOk) then Feed.events feed
  else
    Feed.events (readUpTo (c.submits.filter (·.isOk)).length feed) ++
      [.plain .warn .daemon Failure.closed.userMessage]

def doneEvent (s : Stats) : Event :=
  .plain .info .daemon ("Done: " ++ toString s.batchesReceived ++ " batches received, " ++
    toString s.batchesPosted ++ " posted, " ++ toString s.groupsPosted ++ " groups, " ++
    toString s.messagesPosted ++ " messages, " ++ toString s.sinkErrors ++ " sink errors")

/-- A pipeline with its feed, after it has been run. -/
structure Session where
  result : Except Failure Unit
  stats : Stats
  output : List UInt8
  events : List Event

/-- Runs a pipeline beside the reading of its feed: first the given turns are taken, then each
batch in turn. -/
def session {σ : Type} (turns : List Turn) (capacity : Nat) (limits : Limits) (sink : Sink σ)
    (start : σ) (output : σ → List UInt8) (feed : List Feed) : Session :=
  let c := Channel.start capacity (Feed.batches feed) (.start start)
  let c := (c.takeTurns limits sink turns).complete limits sink
  ⟨c.result, c.pipeline.stats, output c.pipeline.sink,
    readingEvents feed c ++ c.pipeline.log ++ [doneEvent c.pipeline.stats]⟩

/-- The session with the sink that the settings name. -/
def sessionFor (turns : List Turn) (capacity : Nat) (s : Settings) (hasReader : Bool)
    (feed : List Feed) : Session :=
  match s.output.format with
  | .json =>
    session turns capacity s.assembly (Sink.jsonLines (standardOutput hasReader)) (.start ())
      (·.bytes)
      feed
  | .rendered =>
    session turns capacity s.assembly (Sink.rendered s.render) () (fun _ => []) feed

end Notifications.Daemon
