import Mathlib.Data.List.Induction
import Notifications.Proofs.GroupMessages
import Notifications.Proofs.ReliableRuns
import Notifications.Proofs.Sessions
/-!
The counters of a pipeline after any history of calls, runs and runs beside a producer. They count
the batches taken, the posts that succeeded with their groups and messages, and the posts that
failed.
-/
namespace Notifications

open Notice (Group)

variable {σ : Type} {limits : Limits} {sink : Sink σ} {b : Batch}

namespace Sink

theorem answers_concat (sink : Sink σ) (posts : List (List Group)) (groups : List Group) (s : σ) :
    sink.answers (posts ++ [groups]) s =
      sink.answers posts s ++ [(sink.post groups (sink.after posts s)).result] := by
  induction posts generalizing s with
  | nil => rfl
  | cons first posts ih =>
    rw [List.cons_append, answers, ih, answers, List.cons_append]
    rfl

theorem length_answers (sink : Sink σ) (posts : List (List Group)) (s : σ) :
    (sink.answers posts s).length = posts.length := by
  induction posts generalizing s with
  | nil => rfl
  | cons first posts ih => rw [answers, List.length_cons, List.length_cons, ih]

/-- The posts that succeed. -/
def succeeded (sink : Sink σ) (posts : List (List Group)) (s : σ) : List (List Group) :=
  ((posts.zip (sink.answers posts s)).filter (·.2.isOk)).map (·.1)

/-- The answers to the posts that fail. -/
def failures (sink : Sink σ) (posts : List (List Group)) (s : σ) : List (Except Failure Unit) :=
  (sink.answers posts s).filter (!·.isOk)

theorem succeeded_concat (sink : Sink σ) (posts : List (List Group)) (groups : List Group) (s : σ) :
    sink.succeeded (posts ++ [groups]) s = sink.succeeded posts s ++
      if (sink.post groups (sink.after posts s)).result.isOk then [groups] else [] := by
  have hlength : posts.length = (sink.answers posts s).length := (sink.length_answers posts s).symm
  rw [succeeded, answers_concat, List.zip_append hlength, List.filter_append, List.map_append,
    succeeded]
  cases hok : (sink.post groups (sink.after posts s)).result.isOk <;> simp [hok]

theorem failures_concat (sink : Sink σ) (posts : List (List Group)) (groups : List Group) (s : σ) :
    sink.failures (posts ++ [groups]) s = sink.failures posts s ++
      let answer := (sink.post groups (sink.after posts s)).result
      if answer.isOk then [] else [answer] := by
  rw [failures, answers_concat, List.filter_append, failures]
  cases hok : (sink.post groups (sink.after posts s)).result.isOk <;> simp [hok]

theorem length_succeeded_add (sink : Sink σ) (posts : List (List Group)) (s : σ) :
    (sink.succeeded posts s).length + (sink.failures posts s).length = posts.length := by
  induction posts using List.reverseRecOn with
  | nil => rfl
  | append_singleton posts groups ih =>
    rw [succeeded_concat, failures_concat, List.length_append, List.length_append,
      List.length_append]
    cases hok : (sink.post groups (sink.after posts s)).result.isOk <;>
      simp only [hok, if_true, if_false, Bool.false_eq_true, List.length_nil,
        List.length_singleton] <;>
      omega

theorem succeeded_subset (sink : Sink σ) (posts : List (List Group)) (s : σ) :
    sink.succeeded posts s ⊆ posts := by
  intro groups h
  obtain ⟨post, hpost, rfl⟩ := List.mem_map.1 h
  exact (List.of_mem_zip (List.mem_filter.1 hpost).1).1

end Sink

theorem postsOf_concat (limits : Limits) (batches : List Batch) (b : Batch) :
    postsOf limits (batches ++ [b]) =
      postsOf limits batches ++ if assemble limits b = [] then [] else [assemble limits b] := by
  rw [postsOf_append]
  by_cases hempty : assemble limits b = [] <;> simp [postsOf, hempty]

/-- What is posted of a batch: nothing, or all that it assembles to. -/
inductive Pipeline.Processed (limits : Limits) (sink : Sink σ) (b : Batch) (p : Pipeline σ) :
    Except Failure Nat → Pipeline σ → Prop
  | nothing {log} (empty : assemble limits b = []) :
      Processed limits sink b p (.ok 0)
        ⟨{ p.stats with batchesReceived := p.stats.batchesReceived + 1 }, p.sink, log⟩
  | posted {groups log} (heq : assemble limits b = groups) (hne : groups ≠ [])
      (ok : (sink.post groups p.sink).result = .ok ()) :
      Processed limits sink b p (.ok groups.length)
        ⟨⟨p.stats.batchesReceived + 1, p.stats.batchesPosted + 1,
            p.stats.groupsPosted + groups.length, p.stats.messagesPosted + messageCount groups,
            p.stats.sinkErrors⟩, (sink.post groups p.sink).sink, log⟩
  | failed {groups f log} (heq : assemble limits b = groups) (hne : groups ≠ [])
      (error : (sink.post groups p.sink).result = .error f) :
      Processed limits sink b p (.error f)
        ⟨{ p.stats with
            batchesReceived := p.stats.batchesReceived + 1
            sinkErrors := p.stats.sinkErrors + 1 }, (sink.post groups p.sink).sink, log⟩

namespace Pipeline

theorem processed_process (limits : Limits) (sink : Sink σ) (b : Batch) (p : Pipeline σ) :
    Processed limits sink b p (p.process limits sink b).1 (p.process limits sink b).2 := by
  by_cases hempty : assemble limits b = []
  · rw [process, hempty]
    exact .nothing hempty
  · have hsome : (assemble limits b).isEmpty = false := by simpa using hempty
    rw [process]
    simp only [hsome]
    rcases hpost : (sink.post (assemble limits b) p.sink).result with f | _
    · exact .failed rfl hempty hpost
    · exact .posted rfl hempty hpost

/-- A processed batch answers with the number of groups posted, or as the sink does. -/
theorem process_recorded (limits : Limits) (sink : Sink σ) (b : Batch) (p : Pipeline (Recorded σ)) :
    let groups := assemble limits b
    let processed := p.process limits sink.recorded b
    groups = [] ∧ processed.1 = .ok 0 ∧ processed.2.sink.posts = p.sink.posts ∨
      groups ≠ [] ∧ processed.2.sink.posts = p.sink.posts ++ [groups] ∧
        processed.1 = (sink.post groups p.sink.sink).result.map fun _ => groups.length := by
  intro groups processed
  have hprocessed : Processed limits sink.recorded b p processed.1 processed.2 :=
    processed_process limits sink.recorded b p
  generalize processed.1 = answer at hprocessed ⊢
  generalize processed.2 = q at hprocessed ⊢
  cases hprocessed with
  | nothing hempty => exact .inl ⟨hempty, rfl, rfl⟩
  | posted heq hne hok =>
    subst heq
    have hanswer : (sink.post groups p.sink.sink).result = .ok () := hok
    exact .inr ⟨hne, rfl, by rw [hanswer]; rfl⟩
  | failed heq hne herror =>
    subst heq
    have hanswer : (sink.post groups p.sink.sink).result = .error _ := herror
    exact .inr ⟨hne, rfl, by rw [hanswer]; rfl⟩

/-- A run adds to a processed batch only what it logs. -/
theorem advance_eq (limits : Limits) (sink : Sink σ) (b : Batch) (p : Pipeline σ) :
    ∃ events, (p.advance limits sink b).2 = (p.process limits sink b).2.logged events := by
  rw [advance]
  rcases p.process limits sink b with ⟨f | n, q⟩
  · cases hf : f.isRecoverable <;> simp only [hf] <;> exact ⟨_, rfl⟩
  · exact ⟨[], by simp [logged]⟩

end Pipeline

/-- What can be asked of a pipeline. -/
inductive Operation
  | process (b : Batch)
  | run (batches : List Batch)
  /-- A run beside a producer, with some turns that are taken before each batch is posted in
  turn. -/
  | spawn (buffer : Nat) (batches : List Batch) (turns : List Turn)

/-- A pipeline with the batches that it has taken so far. -/
structure History (σ : Type) where
  pipeline : Pipeline σ
  taken : List Batch

namespace History

/-- A run beside a producer is waited for; it does not begin if its queue cannot be made. -/
def perform (limits : Limits) (sink : Sink σ) (h : History σ) : Operation → History σ
  | .process b => ⟨(h.pipeline.process limits sink b).2, h.taken ++ [b]⟩
  | .run batches =>
    ⟨(h.pipeline.run limits sink batches).2,
      h.taken ++ Pipeline.taken limits sink batches h.pipeline.started⟩
  | .spawn buffer batches turns =>
    match Channel.capacityFor? buffer with
    | none => h
    | some capacity =>
      let c := ((Channel.start capacity batches h.pipeline).takeTurns limits sink turns).complete
        limits sink
      ⟨c.pipeline, h.taken ++ c.arrived batches⟩

def after (limits : Limits) (sink : Sink σ) (operations : List Operation) (s : σ) : History σ :=
  operations.foldl (perform limits sink) ⟨.start s, []⟩

end History

/-- The counters, and what has been posted, as they follow from the batches taken and the answers of
the sink. -/
structure Balanced (limits : Limits) (sink : Sink σ) (s : σ) (taken : List Batch)
    (p : Pipeline (Recorded σ)) : Prop where
  posts : p.sink.posts = postsOf limits taken
  state : p.sink.sink = sink.after p.sink.posts s
  stats : p.stats =
    let succeeded := sink.succeeded p.sink.posts s
    ⟨taken.length, succeeded.length, succeeded.flatten.length, messageCount succeeded.flatten,
      (sink.failures p.sink.posts s).length⟩

namespace Balanced

variable {s : σ} {taken : List Batch} {p : Pipeline (Recorded σ)}

theorem start (limits : Limits) (sink : Sink σ) (s : σ) :
    Balanced limits sink s [] (.start ⟨s, []⟩) := ⟨rfl, rfl, rfl⟩

/-- Only the log is added to. -/
theorem logged (h : Balanced limits sink s taken p) (events : List Event) :
    Balanced limits sink s taken (p.logged events) := ⟨h.posts, h.state, h.stats⟩

theorem process (h : Balanced limits sink s taken p) (b : Batch) :
    Balanced limits sink s (taken ++ [b]) (p.process limits sink.recorded b).2 := by
  obtain ⟨hposts, hstate, hstats⟩ := h
  have hprocessed := Pipeline.processed_process limits sink.recorded b p
  generalize (p.process limits sink.recorded b).1 = answer at hprocessed
  generalize (p.process limits sink.recorded b).2 = q at hprocessed ⊢
  cases hprocessed with
  | nothing hempty =>
    refine ⟨?_, hstate, ?_⟩
    · rw [postsOf_concat, if_pos hempty, List.append_nil, hposts]
    · simp [hstats]
  | @posted groups log heq hne hok =>
    have hpost : (sink.post groups (sink.after p.sink.posts s)).result = .ok () := hstate ▸ hok
    refine ⟨?_, ?_, ?_⟩
    · rw [postsOf_concat, heq, if_neg hne, ← hposts]
      rfl
    · simp [Sink.recorded, Sink.after, hstate]
    · simp [Sink.recorded, Sink.succeeded_concat, Sink.failures_concat, hpost, hstats,
        messageCount_append, Except.isOk, Except.toBool]
  | @failed groups f log heq hne herror =>
    have hpost : (sink.post groups (sink.after p.sink.posts s)).result = .error f := hstate ▸ herror
    refine ⟨?_, ?_, ?_⟩
    · rw [postsOf_concat, heq, if_neg hne, ← hposts]
      rfl
    · simp [Sink.recorded, Sink.after, hstate]
    · simp [Sink.recorded, Sink.succeeded_concat, Sink.failures_concat, hpost, hstats,
        Except.isOk, Except.toBool]

theorem advance (h : Balanced limits sink s taken p) (b : Batch) :
    Balanced limits sink s (taken ++ [b]) (p.advance limits sink.recorded b).2 := by
  obtain ⟨events, heq⟩ := Pipeline.advance_eq limits sink.recorded b p
  rw [heq]
  exact (h.process b).logged events

theorem drive (h : Balanced limits sink s taken p) (batches : List Batch) :
    Balanced limits sink s (taken ++ Pipeline.taken limits sink.recorded batches p)
      (Pipeline.drive limits sink.recorded batches p).2 := by
  induction batches generalizing p taken with
  | nil =>
    rw [Pipeline.taken, List.append_nil]
    exact h.logged _
  | cons b batches ih =>
    have hnext := h.advance b
    rcases hadvance : p.advance limits sink.recorded b with ⟨_ | f, q⟩
    · rw [hadvance] at hnext
      rw [Pipeline.taken_of_none hadvance, Pipeline.drive_of_none hadvance, ← List.singleton_append,
        ← List.append_assoc]
      exact ih hnext
    · rw [hadvance] at hnext
      rw [Pipeline.taken_of_some hadvance, Pipeline.drive_of_some hadvance]
      exact hnext

theorem run (h : Balanced limits sink s taken p) (batches : List Batch) :
    Balanced limits sink s (taken ++ Pipeline.taken limits sink.recorded batches p.started)
      (p.run limits sink.recorded batches).2 := (h.logged _).drive batches

theorem perform {h : History (Recorded σ)} (hbalanced : Balanced limits sink s h.taken h.pipeline)
    (o : Operation) : let h' := h.perform limits sink.recorded o
      Balanced limits sink s h'.taken h'.pipeline := by
  cases o with
  | process b => exact hbalanced.process b
  | run batches => exact hbalanced.run batches
  | spawn buffer batches turns =>
    simp only [History.perform]
    split
    · exact hbalanced
    · rename_i capacity hcapacity
      have room : 0 < capacity := Channel.capacity_pos hcapacity
      have hrun := Channel.complete_eq_run limits sink.recorded batches h.pipeline room turns
      rw [Channel.arrived_complete limits sink.recorded batches h.pipeline room turns,
        (Prod.mk.inj hrun).2]
      exact hbalanced.run batches

theorem performAll {h : History (Recorded σ)}
    (hbalanced : Balanced limits sink s h.taken h.pipeline)
    (operations : List Operation) :
    let h' := operations.foldl (History.perform limits sink.recorded) h
    Balanced limits sink s h'.taken h'.pipeline := by
  induction operations generalizing h with
  | nil => exact hbalanced
  | cons o operations ih => exact ih (hbalanced.perform o)

theorem after (limits : Limits) (sink : Sink σ) (operations : List Operation) (s : σ) :
    let h := History.after limits sink.recorded operations ⟨s, []⟩
    Balanced limits sink s h.taken h.pipeline :=
  (start limits sink s).performAll operations

end Balanced

theorem length_postsOf_add (limits : Limits) (batches : List Batch) :
    (postsOf limits batches).length + (batches.filter (assemble limits · = [])).length =
      batches.length := by
  induction batches using List.reverseRecOn with
  | nil => rfl
  | append_singleton batches b ih =>
    rw [postsOf_concat, List.filter_append, List.length_append, List.length_append,
      List.length_append]
    by_cases hempty : assemble limits b = [] <;> simp [hempty] <;> omega

/-- Unless empty groups are kept, a group has a message. -/
theorem messages_ne_nil {g : Group} (h : limits.keepEmpty = false) (hg : g ∈ assemble limits b) :
    g.messages ≠ [] := by
  obtain ⟨-, -, -, hkept⟩ := mem_assemble.1 hg
  exact hkept.resolve_left (by simp [h])

/-- A group has no more messages than the limit allows. -/
theorem length_messages_le {g : Group} (h : limits.maxMessages.toNat ≠ 0)
    (hg : g ∈ assemble limits b) :
    g.messages.length ≤ limits.maxMessages.toNat := by
  rw [messages_eq_newest hg, Notice.length_newest h]
  exact Nat.min_le_left _ _

theorem length_le_length_flatten {posts : List (List Group)} (h : ∀ groups ∈ posts, groups ≠ []) :
    posts.length ≤ posts.flatten.length := by
  induction posts with
  | nil => exact Nat.le_refl _
  | cons groups posts ih =>
    have hrest := ih fun g hg => h g (List.mem_cons_of_mem _ hg)
    have hne := List.length_pos_iff.2 (h groups List.mem_cons_self)
    rw [List.flatten_cons, List.length_append, List.length_cons]
    omega

theorem messageCount_cons (g : Group) (groups : List Group) :
    messageCount (g :: groups) = g.messages.length + messageCount groups := List.length_append

theorem length_le_messageCount {groups : List Group} (h : ∀ g ∈ groups, g.messages ≠ []) :
    groups.length ≤ messageCount groups := by
  induction groups with
  | nil => exact Nat.le_refl _
  | cons g groups ih =>
    have hrest := ih fun a ha => h a (List.mem_cons_of_mem _ ha)
    have hne := List.length_pos_iff.2 (h g List.mem_cons_self)
    rw [messageCount_cons, List.length_cons]
    omega

theorem messageCount_le {groups : List Group} {limit : Nat}
    (h : ∀ g ∈ groups, g.messages.length ≤ limit) :
    messageCount groups ≤ limit * groups.length := by
  induction groups with
  | nil => exact Nat.zero_le _
  | cons g groups ih =>
    have hrest := ih fun a ha => h a (List.mem_cons_of_mem _ ha)
    have hfirst := h g List.mem_cons_self
    rw [messageCount_cons, List.length_cons, Nat.mul_succ]
    omega

/-- Whatever has been asked of a pipeline, and however its sink answers: each batch taken is posted,
fails or assembles to nothing, and the counters are those of the posts made. A batch processed next
answers with the number of groups posted, or as the sink does. -/
theorem counters_of_operations (limits : Limits) (sink : Sink σ) (s : σ)
    (operations : List Operation) :
    let h := History.after limits sink.recorded operations ⟨s, []⟩
    let stats := h.pipeline.stats
    let posts := h.pipeline.sink.posts
    let succeeded := sink.succeeded posts s
    stats.batchesReceived = h.taken.length ∧
      stats.batchesReceived = stats.batchesPosted + stats.sinkErrors +
        (h.taken.filter (assemble limits · = [])).length ∧
      stats.batchesPosted = succeeded.length ∧
      stats.groupsPosted = succeeded.flatten.length ∧
      stats.messagesPosted = messageCount succeeded.flatten ∧
      stats.sinkErrors = (sink.failures posts s).length ∧
      stats.batchesPosted ≤ stats.groupsPosted ∧
      (limits.keepEmpty = false → stats.groupsPosted ≤ stats.messagesPosted) ∧
      (limits.maxMessages.toNat ≠ 0 →
        stats.messagesPosted ≤ limits.maxMessages.toNat * stats.groupsPosted) ∧
      ∀ b, let groups := assemble limits b
        let processed := h.pipeline.process limits sink.recorded b
        groups = [] ∧ processed.1 = .ok 0 ∧ processed.2.sink.posts = posts ∨
          groups ≠ [] ∧ processed.2.sink.posts = posts ++ [groups] ∧
            processed.1 = (sink.post groups (sink.after posts s)).result.map fun _ =>
              groups.length := by
  intro h stats posts succeeded
  have hbalanced : Balanced limits sink s h.taken h.pipeline :=
    Balanced.after limits sink operations s
  have hstats : stats = ⟨h.taken.length, succeeded.length, succeeded.flatten.length,
    messageCount succeeded.flatten, (sink.failures posts s).length⟩ := hbalanced.stats
  have hposts : posts = postsOf limits h.taken := hbalanced.posts
  have hassembled : ∀ groups ∈ succeeded,
      groups ≠ [] ∧ ∃ b ∈ h.taken, assemble limits b = groups := by
    intro groups hgroups
    rw [← mem_postsOf, ← hposts]
    exact sink.succeeded_subset posts s hgroups
  have hgroups : ∀ g ∈ succeeded.flatten, ∃ b, g ∈ assemble limits b := by
    intro g hg
    obtain ⟨groups, hmem, hg⟩ := List.mem_flatten.1 hg
    obtain ⟨-, b, -, rfl⟩ := hassembled groups hmem
    exact ⟨b, hg⟩
  have hnonempty : ∀ groups ∈ succeeded, groups ≠ [] :=
    fun groups hmem => (hassembled groups hmem).1
  rw [hstats, ← hbalanced.state]
  refine ⟨rfl, ?_, rfl, rfl, rfl, rfl, length_le_length_flatten hnonempty, ?_, ?_, ?_⟩
  · have hcount : succeeded.length + (sink.failures posts s).length = posts.length :=
      sink.length_succeeded_add posts s
    have hpostsOf := length_postsOf_add limits h.taken
    rw [← hposts] at hpostsOf
    show h.taken.length = succeeded.length + (sink.failures posts s).length + _
    omega
  · intro hkeep
    apply length_le_messageCount
    intro g hg
    obtain ⟨b, hb⟩ := hgroups g hg
    exact messages_ne_nil hkeep hb
  · intro hlimit
    apply messageCount_le
    intro g hg
    obtain ⟨b, hb⟩ := hgroups g hg
    exact length_messages_le hlimit hb
  · intro b
    exact Pipeline.process_recorded limits sink b h.pipeline

end Notifications
