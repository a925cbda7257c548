import Notifications.Pipeline.Basic
/-!
A pipeline that runs beside its producer. Batches wait in a bounded queue; the producer and the
pipeline take their steps in any order, and `Channel.step?` says which steps are open.
-/
namespace Notifications

/-- What the pipeline does: it waits for a batch, works on one, or has ended. -/
inductive Activity
  | waiting
  | working (b : Batch)
  | ended (result : Except Failure Unit)

/-- The queue between a producer and a pipeline, and the two themselves. -/
structure Channel (σ : Type) where
  capacity : Nat
  /-- What the producer has yet to submit. -/
  toSubmit : List Batch
  /-- How the submits so far ended; the last one is last. -/
  submits : List (Except Failure Unit)
  /-- Accepted and not yet taken, in order. -/
  queue : List Batch
  activity : Activity
  pipeline : Pipeline σ

/-- The steps of the producer and of the pipeline. -/
inductive Turn
  | submit | receive | post | finish
  deriving DecidableEq, Repr

namespace Channel

variable {σ : Type}

/-- No queue can be larger. -/
def maxCapacity : Nat := (UInt64.size - 1) >>> 3

/-- Room for `buffer` batches, and for one at least; nothing if that is too much. -/
def capacityFor? (buffer : Nat) : Option Nat :=
  if max buffer 1 ≤ maxCapacity then some (max buffer 1) else none

/-- A channel before its first turn. -/
def start (capacity : Nat) (batches : List Batch) (p : Pipeline σ) : Channel σ :=
  ⟨capacity, batches, [], [], .waiting, p.started⟩

/-- The producer submits its next batch: it waits for room, and fails once the pipeline has
ended. -/
def submit? (c : Channel σ) : Option (Channel σ) :=
  match c.toSubmit, c.activity with
  | [], _ => none
  | _ :: rest, .ended _ =>
    some { c with toSubmit := rest, submits := c.submits ++ [.error .closed] }
  | b :: rest, _ =>
    if c.queue.length < c.capacity then
      some { c with toSubmit := rest, submits := c.submits ++ [.ok ()], queue := c.queue ++ [b] }
    else none

def receive? (c : Channel σ) : Option (Channel σ) :=
  match c.activity, c.queue with
  | .waiting, b :: rest => some { c with queue := rest, activity := .working b }
  | _, _ => none

def post? (limits : Limits) (sink : Sink σ) (c : Channel σ) : Option (Channel σ) :=
  match c.activity with
  | .working b =>
    match c.pipeline.advance limits sink b with
    | (none, p) => some { c with activity := .waiting, pipeline := p }
    | (some f, p) => some { c with activity := .ended (.error f), pipeline := p }
  | _ => none

/-- The pipeline ends well when the producer is done and nothing is queued. -/
def finish? (c : Channel σ) : Option (Channel σ) :=
  match c.activity, c.queue, c.toSubmit with
  | .waiting, [], [] => some { c with activity := .ended (.ok ()), pipeline := c.pipeline.finished }
  | _, _, _ => none

def step? (limits : Limits) (sink : Sink σ) (c : Channel σ) : Turn → Option (Channel σ)
  | .submit => c.submit?
  | .receive => c.receive?
  | .post => c.post? limits sink
  | .finish => c.finish?

/-- Takes the turns that are open and leaves out the others. -/
def takeTurns (limits : Limits) (sink : Sink σ) (c : Channel σ) (turns : List Turn) : Channel σ :=
  turns.foldl (fun c t => (c.step? limits sink t).getD c) c

/-- Some rounds in each of which a batch is submitted, taken and posted; the end comes last. -/
def inTurn (rounds : Nat) : List Turn :=
  (List.replicate rounds [Turn.submit, .receive, .post]).flatten ++ [.finish]

/-- Brings a channel to its end: from here on each batch is worked on before the next is
submitted. -/
def complete (limits : Limits) (sink : Sink σ) (c : Channel σ) : Channel σ :=
  c.takeTurns limits sink (inTurn (c.toSubmit.length + c.queue.length + 1))

/-- What the run has come to; one that has not ended has not failed. -/
def result (c : Channel σ) : Except Failure Unit :=
  match c.activity with
  | .ended r => r
  | _ => .ok ()

end Channel

end Notifications
