import Notifications.Assembly
import Notifications.Failure
import Notifications.Log
/-!
Batches on their way to a sink. A failed post is counted; if it was one that the pipeline can carry
on after, the next batch is taken, otherwise the run ends with that failure.
-/
namespace Notifications

open Notice (Group)

/-- What a post answers, with what the sink logs meanwhile and the sink after it. -/
structure Posted (σ : Type) where
  result : Except Failure Unit
  events : List Event
  sink : σ

/-- A destination for groups, with states of type `σ`. -/
structure Sink (σ : Type) where
  post : List Group → σ → Posted σ

structure Stats where
  batchesReceived : Nat
  batchesPosted : Nat
  groupsPosted : Nat
  messagesPosted : Nat
  sinkErrors : Nat
  deriving DecidableEq, Repr

def Stats.zero : Stats := ⟨0, 0, 0, 0, 0⟩

/-- The counters as they are logged. -/
def Stats.text (s : Stats) : String :=
  "PipelineStats \x7b batches_received: " ++ toString s.batchesReceived ++
    ", batches_posted: " ++ toString s.batchesPosted ++
    ", conversations_posted: " ++ toString s.groupsPosted ++
    ", messages_posted: " ++ toString s.messagesPosted ++
    ", sink_errors: " ++ toString s.sinkErrors ++ " \x7d"

/-- A pipeline at rest: its counters, its sink, and what has been logged. -/
structure Pipeline (σ : Type) where
  stats : Stats
  sink : σ
  log : List Event

def Pipeline.start {σ : Type} (sink : σ) : Pipeline σ := ⟨.zero, sink, []⟩

def messageCount (groups : List Group) : Nat := (groups.flatMap (·.messages)).length

/-- The ids of the records that belong to a conversation the batch has named before. -/
def repeatedIds (batch : Batch) : List String :=
  go [] (batch.map (·.id.display))
where
  go (seen : List String) : List String → List String
    | [] => []
    | id :: r => if id ∈ seen then id :: go seen r else go (id :: seen) r

/-- What assembling a batch logs. -/
def assemblyEvents (batch : Batch) (groups : List Group) : List Event :=
  (repeatedIds batch).map
    (fun id => .plain .trace .batch ("Merging repeated conversation " ++ id)) ++
    [.plain .debug .batch ("Assembled " ++ toString batch.length ++ " records into " ++
      toString groups.length ++ " notification groups (" ++
      toString ((gather batch).length - groups.length) ++ " dropped as empty)")]

namespace Pipeline

variable {σ : Type}

def logged (p : Pipeline σ) (events : List Event) : Pipeline σ := { p with log := p.log ++ events }

/-- Assembles one batch and posts it, unless it assembles to nothing. Answers with the number of
groups posted. -/
def process (limits : Limits) (sink : Sink σ) (batch : Batch) (p : Pipeline σ) :
    Except Failure Nat × Pipeline σ :=
  let groups := assemble limits batch
  let stats := { p.stats with batchesReceived := p.stats.batchesReceived + 1 }
  let log := p.log ++ assemblyEvents batch groups
  if groups.isEmpty then
    (.ok 0, ⟨stats, p.sink, log ++ [.plain .debug .pipeline
      ("Batch of " ++ toString batch.length ++ " records produced no notifications")]⟩)
  else
    let posted := sink.post groups p.sink
    let log := log ++ posted.events
    match posted.result with
    | .ok () =>
      (.ok groups.length,
        ⟨{ stats with
            batchesPosted := stats.batchesPosted + 1
            groupsPosted := stats.groupsPosted + groups.length
            messagesPosted := stats.messagesPosted + messageCount groups },
          posted.sink,
          log ++ [.plain .debug .pipeline ("Posted " ++ toString groups.length ++
            " notification groups (" ++ toString (messageCount groups) ++ " messages)")]⟩)
    | .error f =>
      (.error f, ⟨{ stats with sinkErrors := stats.sinkErrors + 1 }, posted.sink, log⟩)

/-- Processes a batch in a run: answers with the failure that ends the run, if there is one. -/
def advance (limits : Limits) (sink : Sink σ) (batch : Batch) (p : Pipeline σ) :
    Option Failure × Pipeline σ :=
  match p.process limits sink batch with
  | (.ok _, p) => (none, p)
  | (.error f, p) =>
    if f.isRecoverable then
      (none, p.logged [.plain .warn .pipeline ("Failed to post notifications: " ++ f.message)])
    else
      (some f, p.logged [.plain .error .pipeline ("Notification pipeline stopping: " ++ f.message)])

def started (p : Pipeline σ) : Pipeline σ :=
  p.logged [.plain .info .pipeline "Notification pipeline started"]

def finished (p : Pipeline σ) : Pipeline σ :=
  p.logged [.plain .info .pipeline ("Notification pipeline finished: " ++ p.stats.text)]

/-- Takes the batches one after another, up to the first failure that ends the run. -/
def drive (limits : Limits) (sink : Sink σ) :
    List Batch → Pipeline σ → Except Failure Unit × Pipeline σ
  | [], p => (.ok (), p.finished)
  | b :: bs, p =>
    match p.advance limits sink b with
    | (none, p) => drive limits sink bs p
    | (some f, p) => (.error f, p)

def run (limits : Limits) (sink : Sink σ) (batches : List Batch) (p : Pipeline σ) :
    Except Failure Unit × Pipeline σ :=
  drive limits sink batches p.started

end Pipeline

end Notifications
