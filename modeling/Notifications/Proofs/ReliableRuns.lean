import Notifications.Pipeline.Basic
import Notifications.Proofs.Taken
import Notifications.Proofs.Writing
/-!
Runs with a sink that never fails. They take every batch, post what does not assemble to nothing,
and count what they post.
-/
namespace Notifications

open Notice (Group)

variable {σ ω : Type} {limits : Limits} {sink : Sink σ}

/-- Every post succeeds. -/
def Sink.NeverFails (sink : Sink σ) : Prop :=
  ∀ groups s, (sink.post groups s).result = .ok ()

theorem Writer.Reliable.neverFails {w : Writer ω} (h : w.Reliable) :
    (Sink.jsonLines w).NeverFails :=
  h.post_ok

/-- What there is to post of some batches. -/
def postsOf (limits : Limits) (batches : List Batch) : List (List Group) :=
  (batches.map (assemble limits)).filter (· ≠ [])

theorem postsOf_append (limits : Limits) (a b : List Batch) :
    postsOf limits (a ++ b) = postsOf limits a ++ postsOf limits b := by
  rw [postsOf, List.map_append, List.filter_append]
  rfl

theorem mem_postsOf {groups : List Group} {batches : List Batch} :
    groups ∈ postsOf limits batches ↔ groups ≠ [] ∧ ∃ b ∈ batches, assemble limits b = groups := by
  simp [postsOf, and_comm]

theorem messageCount_append (a b : List Group) :
    messageCount (a ++ b) = messageCount a + messageCount b := by
  rw [messageCount, List.flatMap_append, List.length_append]
  rfl

/-- The counters after some more batches and successful posts. -/
def Stats.after (s : Stats) (batches : List Batch) (posts : List (List Group)) : Stats where
  batchesReceived := s.batchesReceived + batches.length
  batchesPosted := s.batchesPosted + posts.length
  groupsPosted := s.groupsPosted + posts.flatten.length
  messagesPosted := s.messagesPosted + messageCount posts.flatten
  sinkErrors := s.sinkErrors

theorem Stats.after_append (s : Stats) (a b : List Batch) (c d : List (List Group)) :
    s.after (a ++ b) (c ++ d) = (s.after a c).after b d := by
  simp [Stats.after, messageCount_append, Nat.add_assoc]

namespace Pipeline

theorem advance_of_neverFails (h : sink.NeverFails) (limits : Limits) (b : Batch) (p : Pipeline σ) :
    let posts := postsOf limits [b]
    ∃ log, p.advance limits sink b =
      (none, ⟨p.stats.after [b] posts, sink.after posts p.sink, log⟩) := by
  intro posts
  by_cases hempty : assemble limits b = []
  · have hposts : posts = [] := by simp [posts, postsOf, hempty]
    rw [hposts, advance, process, hempty]
    exact ⟨_, rfl⟩
  · have hposts : posts = [assemble limits b] := by simp [posts, postsOf, hempty]
    have hsome : (assemble limits b).isEmpty = false := by simpa using hempty
    have hpost := h (assemble limits b) p.sink
    rw [hposts, advance, process]
    simp only [hsome, hpost, Stats.after, List.flatten_singleton]
    exact ⟨_, rfl⟩

theorem drive_of_neverFails (h : sink.NeverFails) (limits : Limits) (batches : List Batch)
    (p : Pipeline σ) :
    let posts := postsOf limits batches
    ∃ log, drive limits sink batches p =
      (.ok (), ⟨p.stats.after batches posts, sink.after posts p.sink, log⟩) := by
  induction batches generalizing p with
  | nil => exact ⟨_, rfl⟩
  | cons b batches ih =>
    obtain ⟨log, hadvance⟩ := advance_of_neverFails h limits b p
    obtain ⟨log', hdrive⟩ := ih _
    refine ⟨log', ?_⟩
    rw [drive_of_none hadvance, hdrive, ← Stats.after_append, ← Sink.after_append, ← postsOf_append]
    rfl

theorem run_of_neverFails (h : sink.NeverFails) (limits : Limits) (batches : List Batch) (s : σ) :
    let posts := postsOf limits batches
    ∃ log, (start s).run limits sink batches =
      (.ok (), ⟨Stats.zero.after batches posts, sink.after posts s, log⟩) :=
  drive_of_neverFails h limits batches (start s).started

end Pipeline

end Notifications
