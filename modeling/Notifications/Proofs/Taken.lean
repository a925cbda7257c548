import Notifications.Pipeline.Basic
/-!
Which batches a run takes: all of them, or those up to the first whose failure ends it. A sink can
be made to keep what is posted to it, so that the posts of a run are a part of its pipeline.
-/
namespace Notifications

open Notice (Group)

/-- A sink with the posts that have been made to it, failed ones included; the last one is last. -/
structure Recorded (σ : Type) where
  sink : σ
  posts : List (List Group)

def Sink.recorded {σ : Type} (sink : Sink σ) : Sink (Recorded σ) where
  post groups r :=
    let posted := sink.post groups r.sink
    ⟨posted.result, posted.events, ⟨posted.sink, r.posts ++ [groups]⟩⟩

namespace Pipeline

variable {σ : Type} {limits : Limits} {sink : Sink σ} {b : Batch} {batches : List Batch}
  {p q : Pipeline σ} {f : Failure}

/-- The batches that a run takes. -/
def taken (limits : Limits) (sink : Sink σ) : List Batch → Pipeline σ → List Batch
  | [], _ => []
  | b :: bs, p =>
    match p.advance limits sink b with
    | (none, p) => b :: taken limits sink bs p
    | (some _, _) => [b]

theorem taken_of_none (h : p.advance limits sink b = (none, q)) :
    taken limits sink (b :: batches) p = b :: taken limits sink batches q := by
  simp only [taken, h]

theorem taken_of_some (h : p.advance limits sink b = (some f, q)) :
    taken limits sink (b :: batches) p = [b] := by
  simp only [taken, h]

theorem drive_of_none (h : p.advance limits sink b = (none, q)) :
    drive limits sink (b :: batches) p = drive limits sink batches q := by
  simp only [drive, h]

theorem drive_of_some (h : p.advance limits sink b = (some f, q)) :
    drive limits sink (b :: batches) p = (.error f, q) := by
  simp only [drive, h]

theorem advance_of_nothing (h : assemble limits b = []) (sink : Sink σ) (p : Pipeline σ) :
    ∃ log, p.advance limits sink b =
      (none, ⟨{ p.stats with batchesReceived := p.stats.batchesReceived + 1 }, p.sink, log⟩) := by
  rw [advance, process, h]
  exact ⟨_, rfl⟩

/-- Only a failure after which the pipeline cannot carry on ends a run. -/
theorem isRecoverable_of_advance (h : p.advance limits sink b = (some f, q)) :
    f.isRecoverable = false := by
  rw [advance] at h
  split at h
  · cases h
  · split at h
    · cases h
    · rename_i hf
      cases h
      simpa using hf

end Pipeline

end Notifications
