import Notifications.Daemon.Session
import Notifications.Proofs.Schedules
/-!
A pipeline beside the reading of its feed. In whatever order the two take turns, what is posted and
counted, and how it ends, is that of a run on the batches of the feed.
-/
namespace Notifications

variable {σ : Type}

namespace Channel

variable {capacity : Nat}

/-- The turns that are taken first and those that bring the channel to its end make up one
schedule. -/
theorem exists_turns_complete (limits : Limits) (sink : Sink σ) (batches : List Batch)
    (p : Pipeline σ)
    (room : 0 < capacity) (turns : List Turn) :
    let c := ((start capacity batches p).takeTurns limits sink turns).complete limits sink
    ∃ all r, c = (start capacity batches p).takeTurns limits sink all ∧ c.activity = .ended r := by
  intro c
  let before := (start capacity batches p).takeTurns limits sink turns
  have hcapacity : 0 < before.capacity := by
    rw [capacity_takeTurns]
    exact room
  obtain ⟨r, hended, -⟩ : ∃ r, c.activity = .ended r ∧ c.toSubmit = [] := ended_complete hcapacity
  exact ⟨turns ++ inTurn (before.toSubmit.length + before.queue.length + 1), r,
    (takeTurns_append _ _ _).symm, hended⟩

theorem complete_eq_run (limits : Limits) (sink : Sink σ) (batches : List Batch)
    (p : Pipeline σ) (room : 0 < capacity) (turns : List Turn) :
    let c := ((start capacity batches p).takeTurns limits sink turns).complete limits sink
    (c.result, c.pipeline) = p.run limits sink batches := by
  intro c
  obtain ⟨all, r, hturns, hended⟩ := exists_turns_complete limits sink batches p room turns
  have hresult : c.result = r := by rw [result, hended]
  rw [hresult]
  rw [hturns] at hended
  rw [show c.pipeline = _ from congrArg Channel.pipeline hturns]
  exact ended_eq_run hended

/-- The batches that have come to the pipeline: those that were accepted, without those still
queued. -/
def arrived (batches : List Batch) (c : Channel σ) : List Batch :=
  batches.take ((c.submits.filter (·.isOk)).length - c.queue.length)

theorem Accounts.arrived_eq {batches taken : List Batch} {c : Channel σ} {accepted refused : Nat}
    {r : Except Failure Unit} (h : Accounts batches taken c accepted refused)
    (hr : c.activity = .ended r) : arrived batches c = taken := by
  have haccepted : (c.submits.filter (·.isOk)).length = accepted := by
    rw [h.submits, List.filter_append, List.filter_replicate, List.filter_replicate]
    simp [Except.isOk, Except.toBool]
  have htaken := h.received r hr
  have hcount := h.count
  have hlength : min accepted batches.length = taken.length + c.queue.length := by
    rw [← List.length_take, htaken, List.length_append]
  have hless : accepted - c.queue.length ≤ accepted := Nat.sub_le _ _
  rw [arrived, haccepted, ← Nat.min_eq_left hless, ← List.take_take, htaken]
  exact List.take_left' (by omega)

/-- At its end the pipeline has been given what the run on the same batches takes. -/
theorem arrived_complete (limits : Limits) (sink : Sink σ) (batches : List Batch) (p : Pipeline σ)
    (room : 0 < capacity) (turns : List Turn) :
    arrived batches
      (((start capacity batches p).takeTurns limits sink turns).complete limits sink) =
      Pipeline.taken limits sink batches p.started := by
  obtain ⟨all, r, hturns, hended⟩ := exists_turns_complete limits sink batches p room turns
  obtain ⟨processed, refused, ledger⟩ := exists_ledger limits sink capacity batches p all
  rw [hturns] at hended ⊢
  exact ledger.accounts.arrived_eq hended

end Channel

/-- What a session logs: the reading, the run, and the counters at the end. -/
theorem Daemon.session_of_run {capacity : Nat} {limits : Limits} {sink : Sink σ} {s : σ}
    {feed : List Feed}
    {r : Except Failure Unit} {q : Pipeline σ} (room : 0 < capacity)
    (h : (Pipeline.start s).run limits sink (Feed.batches feed) = (r, q))
    (turns : List Turn) (output : σ → List UInt8) :
    ∃ c : Channel σ, session turns capacity limits sink s output feed =
      ⟨r, q.stats, output q.sink, readingEvents feed c ++ q.log ++ [doneEvent q.stats]⟩ := by
  have hrun := Channel.complete_eq_run limits sink (Feed.batches feed) (.start s) room turns
  obtain ⟨hresult, hpipeline⟩ := Prod.mk.inj (hrun.trans h)
  rw [session, hresult, hpipeline]
  exact ⟨_, rfl⟩

end Notifications
