import Notifications.Proofs.Gathering
import Notifications.Proofs.Interleaving
/-!
All schedules of a producer and its pipeline. None goes on for ever and none gets stuck before the
pipeline has ended, and wherever it ends it has come to what the run on the same batches comes to.
-/
namespace Notifications.Channel

variable {σ : Type} {limits : Limits} {sink : Sink σ} {batches : List Batch} {p : Pipeline σ}
  {c d : Channel σ} {t : Turn} {b : Batch} {r : Except Failure Unit}

/-- How many steps a channel is from its end at most: a batch is submitted, taken and posted, and
the pipeline ends. -/
def work (c : Channel σ) : Nat :=
  3 * c.toSubmit.length + 2 * c.queue.length +
    match c.activity with
    | .waiting => 1
    | .working _ => 2
    | .ended _ => 0

theorem work_lt_of_step (h : Step limits sink t c d) : d.work < c.work := by
  cases h with
  | accept => simp only [work, List.length_cons, List.length_append, List.length_nil]; omega
  | refuse => simp only [work, List.length_cons]; omega
  | take => simp only [work, List.length_cons]; omega
  | carryOn => simp only [work]; omega
  | stop => simp only [work]; omega
  | finish => simp only [work]; omega

theorem exists_step_of_live (room : 0 < c.capacity) (live : ∀ r, c.activity ≠ .ended r) :
    ∃ t d, c.step? limits sink t = some d := by
  obtain ⟨capacity, toSubmit, submits, queue, activity, p⟩ := c
  cases activity with
  | ended r => exact absurd rfl (live r)
  | working b =>
    rcases hadvance : p.advance limits sink b with ⟨_ | f, q⟩
    · exact ⟨.post, _, by simp only [step?, post?, hadvance]; rfl⟩
    · exact ⟨.post, _, by simp only [step?, post?, hadvance]; rfl⟩
  | waiting =>
    cases queue with
    | cons b rest => exact ⟨.receive, _, rfl⟩
    | nil =>
      cases toSubmit with
      | nil => exact ⟨.finish, _, rfl⟩
      | cons b rest => exact ⟨.submit, _, if_pos room⟩

theorem capacity_takeTurns (c : Channel σ) (turns : List Turn) :
    (c.takeTurns limits sink turns).capacity = c.capacity := by
  apply takeTurns_keeps (P := fun d => d.capacity = c.capacity) ?_ rfl
  intro t c' d h hc
  cases h <;> exact hc

theorem exists_ledger (limits : Limits) (sink : Sink σ) (capacity : Nat) (batches : List Batch)
    (p : Pipeline σ) (turns : List Turn) : ∃ processed refused, Ledger limits sink batches p.started
      ((start capacity batches p).takeTurns limits sink turns) processed refused := by
  apply takeTurns_keeps (P := fun d => ∃ processed refused,
    Ledger limits sink batches p.started d processed refused)
  · rintro t c d h ⟨processed, refused, hc⟩
    exact hc.step h
  · exact ⟨[], [], ledger_start capacity batches p⟩

/-- An ended pipeline is what the run on the same batches comes to. -/
theorem ended_eq_run {capacity : Nat} {turns : List Turn}
    (h : ((start capacity batches p).takeTurns limits sink turns).activity = .ended r) :
    (r, ((start capacity batches p).takeTurns limits sink turns).pipeline) =
      p.run limits sink batches := by
  rw [← outlook_start capacity batches p, ← outlook_takeTurns _ turns, outlook, h]

/-- The batches that still need a round: all that are ahead, or those whose submit will fail. -/
def left (c : Channel σ) : Nat :=
  match c.activity with
  | .ended _ => c.toSubmit.length
  | _ => c.ahead.length

theorem left_le_of_step (h : Step limits sink t c d) : d.left ≤ c.left := by
  cases h with
  | @accept _ _ _ _ _ activity _ live _ =>
    cases activity with
    | ended r => exact absurd rfl (live r)
    | waiting => simp [left, ahead, Activity.inHand]
    | working b => simp [left, ahead, Activity.inHand]
  | refuse => exact Nat.le_succ _
  | take => exact Nat.le_refl _
  | carryOn => simp [left, ahead, Activity.inHand]
  | stop =>
    simp only [left, ahead, Activity.inHand, List.length_append, List.length_singleton]
    omega
  | finish => exact Nat.le_refl _

theorem left_takeTurns_le (limits : Limits) (sink : Sink σ) (c : Channel σ) (turns : List Turn) :
    (c.takeTurns limits sink turns).left ≤ c.left :=
  takeTurns_keeps (P := fun d => d.left ≤ c.left)
    (fun h hc => Nat.le_trans (left_le_of_step h) hc) (Nat.le_refl _) turns

/-- A batch in hand is dealt with by a post. -/
theorem left_post_of_working (limits : Limits) (sink : Sink σ) (h : c.activity = .working b) :
    (c.takeTurns limits sink [.post]).left ≤ c.left - 1 := by
  obtain ⟨capacity, toSubmit, submits, queue, activity, p⟩ := c
  obtain rfl := h
  rcases hadvance : p.advance limits sink b with ⟨_ | f, q⟩
  · simp only [takeTurns, List.foldl, step?, post?, hadvance, Option.getD_some, left, ahead,
      Activity.inHand, List.length_append, List.length_singleton, List.length_nil]
    omega
  · simp only [takeTurns, List.foldl, step?, post?, hadvance, Option.getD_some, left, ahead,
      Activity.inHand, List.length_append, List.length_singleton]
    omega

theorem takeTurns_append (c : Channel σ) (turns more : List Turn) :
    c.takeTurns limits sink (turns ++ more) =
      (c.takeTurns limits sink turns).takeTurns limits sink more := List.foldl_append

/-- A pipeline that may receive after a submit has a batch in hand, unless none is left. -/
theorem working_or_left_eq_zero (limits : Limits) (sink : Sink σ) (room : 0 < c.capacity)
    (live : ∀ r, c.activity ≠ .ended r) :
    let d := c.takeTurns limits sink [.submit, .receive]
    (∃ b, d.activity = .working b) ∨ d.left = 0 := by
  obtain ⟨capacity, toSubmit, submits, queue, activity, p⟩ := c
  cases activity with
  | ended r => exact absurd rfl (live r)
  | working b =>
    left
    refine ⟨b, ?_⟩
    cases toSubmit with
    | nil => rfl
    | cons a rest =>
      simp only [takeTurns, List.foldl, step?, submit?]
      split <;> rfl
  | waiting =>
    cases toSubmit with
    | nil =>
      cases queue with
      | nil => exact Or.inr rfl
      | cons b queue => exact Or.inl ⟨b, rfl⟩
    | cons a rest =>
      left
      cases queue with
      | nil =>
        refine ⟨a, ?_⟩
        simp only [takeTurns, List.foldl, step?, submit?]
        rw [if_pos (show ([] : List Batch).length < capacity from room)]
        rfl
      | cons b queue =>
        refine ⟨b, ?_⟩
        simp only [takeTurns, List.foldl, step?, submit?]
        split <;> rfl

/-- A round leaves one batch less. -/
theorem left_round (limits : Limits) (sink : Sink σ) (room : 0 < c.capacity) :
    (c.takeTurns limits sink [.submit, .receive, .post]).left ≤ c.left - 1 := by
  by_cases hended : ∃ r, c.activity = .ended r
  · obtain ⟨r, hr⟩ := hended
    obtain ⟨capacity, toSubmit, submits, queue, activity, p⟩ := c
    obtain rfl := hr
    cases toSubmit <;> exact Nat.le_refl _
  · have live : ∀ r, c.activity ≠ .ended r := fun r hr => hended ⟨r, hr⟩
    have hle := left_takeTurns_le limits sink c [.submit, .receive]
    rw [show [Turn.submit, .receive, .post] = [.submit, .receive] ++ [.post] from rfl,
      takeTurns_append]
    rcases working_or_left_eq_zero limits sink room live with ⟨b, hb⟩ | hzero
    · have hpost := left_post_of_working limits sink hb
      omega
    · have hpost := left_takeTurns_le limits sink (c.takeTurns limits sink [.submit, .receive])
        [.post]
      omega

theorem left_rounds (n : Nat) (room : 0 < c.capacity) (h : c.left ≤ n) :
    (c.takeTurns limits sink (List.replicate n [Turn.submit, .receive, .post]).flatten).left =
      0 := by
  induction n generalizing c with
  | zero => exact Nat.le_zero.1 h
  | succ n ih =>
    rw [List.replicate_succ, List.flatten_cons, takeTurns_append]
    apply ih
    · rw [capacity_takeTurns]
      exact room
    · have hround := left_round limits sink room
      omega

theorem left_le_rounds (c : Channel σ) : c.left ≤ c.toSubmit.length + c.queue.length + 1 := by
  obtain ⟨capacity, toSubmit, submits, queue, activity, p⟩ := c
  cases activity <;> simp [left, ahead, Activity.inHand] <;> omega

theorem ended_of_left_eq_zero (h : c.left = 0) :
    ∃ r, (c.takeTurns limits sink [.finish]).activity = .ended r ∧
      (c.takeTurns limits sink [.finish]).toSubmit = [] := by
  obtain ⟨capacity, toSubmit, submits, queue, activity, p⟩ := c
  cases activity with
  | ended r => exact ⟨r, rfl, List.length_eq_zero_iff.1 h⟩
  | working b => simp [left, ahead, Activity.inHand] at h
  | waiting =>
    simp only [left, ahead, Activity.inHand, List.length_eq_zero_iff, List.append_eq_nil_iff] at h
    obtain ⟨⟨-, rfl⟩, rfl⟩ := h
    exact ⟨.ok (), rfl, rfl⟩

/-- Taking each batch in turn brings a channel to its end, whatever has been done before. -/
theorem ended_complete (room : 0 < c.capacity) :
    ∃ r, (c.complete limits sink).activity = .ended r ∧ (c.complete limits sink).toSubmit = [] := by
  rw [complete, inTurn, takeTurns_append]
  exact ended_of_left_eq_zero (left_rounds _ room (left_le_rounds c))

/-- Nothing is queued and the pipeline does not work on anything. -/
def Idle (c : Channel σ) : Prop := c.queue = [] ∧ c.activity.inHand = []

/-- Each batch is processed before the next one is submitted. -/
def OneByOne (limits : Limits) (sink : Sink σ) : List Turn → Channel σ → Prop
  | [], _ => True
  | t :: turns, c =>
    (t = .submit → c.Idle) ∧ OneByOne limits sink turns ((c.step? limits sink t).getD c)

/-- Of the accepted batches at most one is not processed, and none once the pipeline has ended. -/
structure AtMostOne (c : Channel σ) : Prop where
  waiting : c.queue.length + c.activity.inHand.length ≤ 1
  ended : ∀ r, c.activity = .ended r → c.queue = []

theorem AtMostOne.step (h : c.AtMostOne) (hs : Step limits sink t c d)
    (idle : t = .submit → c.Idle) : d.AtMostOne := by
  cases hs with
  | @accept _ _ _ _ queue activity _ live _ =>
    obtain ⟨rfl, hhand⟩ : queue = [] ∧ activity.inHand = [] := idle rfl
    constructor
    · simp [hhand]
    · exact fun r hr => absurd hr (live r)
  | refuse => exact ⟨h.waiting, h.ended⟩
  | take =>
    have hwaiting := h.waiting
    simp only [List.length_cons, Activity.inHand, List.length_nil] at hwaiting
    refine ⟨?_, fun r hr => absurd hr (Activity.working_ne_ended _ r)⟩
    simp only [Activity.inHand, List.length_singleton]
    omega
  | carryOn =>
    have hwaiting := h.waiting
    refine ⟨?_, fun r hr => absurd hr (Activity.waiting_ne_ended r)⟩
    simp only [Activity.inHand, List.length_nil] at hwaiting ⊢
    omega
  | @stop _ _ _ queue =>
    have hwaiting : queue.length + 1 ≤ 1 := h.waiting
    have hqueue : queue = [] := List.length_eq_zero_iff.1 (by omega)
    refine ⟨?_, fun _ _ => hqueue⟩
    simp [hqueue, Activity.inHand]
  | finish => exact ⟨Nat.zero_le _, fun _ _ => rfl⟩

theorem AtMostOne.takeTurns {turns : List Turn} (h : c.AtMostOne)
    (hturns : OneByOne limits sink turns c) : (c.takeTurns limits sink turns).AtMostOne := by
  induction turns generalizing c with
  | nil => exact h
  | cons t turns ih =>
    obtain ⟨idle, hturns⟩ := hturns
    refine ih ?_ hturns
    show ((c.step? limits sink t).getD c).AtMostOne
    cases hd : c.step? limits sink t with
    | none => exact h
    | some d => exact h.step (step_of_eq hd) idle

theorem capacity_eq_of_capacityFor? {buffer capacity : Nat}
    (h : capacityFor? buffer = some capacity) : capacity = max buffer 1 := by
  rw [capacityFor?, Option.ite_none_right_eq_some] at h
  exact (Option.some.inj h.2).symm

theorem capacity_pos {buffer capacity : Nat} (h : capacityFor? buffer = some capacity) :
    0 < capacity := by
  have hcapacity := capacity_eq_of_capacityFor? h
  omega

theorem capacityFor?_eq_none_iff (buffer : Nat) :
    capacityFor? buffer = none ↔ maxCapacity < buffer := by
  have hone : 1 ≤ maxCapacity := by decide
  rw [capacityFor?]
  split
  · simp only [reduceCtorEq, false_iff]
    omega
  · simp only [true_iff]
    omega

/-- How the submits have gone: first those that were accepted, then those that failed because the
pipeline had stopped. Accepted batches that the run does not take are still queued at the end. -/
structure Accounts (batches taken : List Batch) (c : Channel σ) (accepted refused : Nat) :
    Prop where
  submits : c.submits = List.replicate accepted (.ok ()) ++ List.replicate refused (.error .closed)
  count : accepted + refused + c.toSubmit.length = batches.length
  stopped : refused ≠ 0 → c.Stopped
  received : ∀ r, c.activity = .ended r → batches.take accepted = taken ++ c.queue
  unreceived : ∀ r, c.activity = .ended r → c.queue ≠ [] → c.Stopped
  room : c.queue.length ≤ c.capacity

theorem Ledger.accounts {processed refused : List Batch}
    (h : Ledger limits sink batches p c processed refused) :
    Accounts batches (Pipeline.taken limits sink batches p) c
      (processed ++ c.activity.inHand ++ c.queue).length refused.length where
  submits := h.submits
  count := by
    have hplaces := congrArg List.length h.places
    simp only [List.length_append] at hplaces ⊢
    omega
  stopped hne := h.stopped (mt List.length_eq_zero_iff.2 hne)
  received r hr := by
    have hhand : c.activity.inHand = [] := by rw [hr]; rfl
    have htaken : Pipeline.taken limits sink batches p = processed := by
      have hahead : c.ahead = [] := by rw [ahead, hr]
      rw [h.taken, hahead, Pipeline.taken, List.append_nil]
    have hplaces := h.places
    rw [List.append_assoc _ refused, hhand, List.append_nil] at hplaces
    rw [htaken, hhand, List.append_nil, hplaces, List.take_left']
    rfl
  unreceived r hr hne := by
    rcases h.ending r hr with hstopped | ⟨-, hqueue, -⟩
    · exact hstopped
    · exact absurd hqueue hne
  room := h.room

theorem Accounts.accepted_eq {taken : List Batch} {accepted refused : Nat}
    (h : Accounts batches taken c accepted refused) (hr : c.activity = .ended r)
    (hqueue : c.queue = []) : accepted = taken.length := by
  have hreceived := congrArg List.length (h.received r hr)
  rw [hqueue, List.append_nil, List.length_take] at hreceived
  have hcount := h.count
  omega

/-- Whatever turns are taken: an ended pipeline has posted, counted and answered what the run on the
same batches does; one that has not ended can go on, though not for ever, and is brought to its end
by taking what is left in turn. Submits fail only once the pipeline has stopped on a failure, and
where each batch is processed before the next is submitted no accepted batch is left behind. -/
theorem follows_run {buffer capacity : Nat} (hcapacity : capacityFor? buffer = some capacity)
    (limits : Limits) (sink : Sink σ) (batches : List Batch) (p : Pipeline (Recorded σ))
    (turns : List Turn) :
    let sink := sink.recorded
    let taken := Pipeline.taken limits sink batches p.started
    let c := (start capacity batches p).takeTurns limits sink turns
    (∀ r, c.activity = .ended r → (r, c.pipeline) = p.run limits sink batches) ∧
    ((∀ r, c.activity ≠ .ended r) → ∃ t d, c.step? limits sink t = some d) ∧
    (∀ t d, c.step? limits sink t = some d → d.work < c.work) ∧
    (∃ r, (c.complete limits sink).activity = .ended r ∧ (c.complete limits sink).toSubmit = []) ∧
    c.capacity = max buffer 1 ∧ ∃ accepted refused, Accounts batches taken c accepted refused ∧
      (OneByOne limits sink turns (start capacity batches p) →
        ∀ r, c.activity = .ended r → accepted = taken.length) := by
  intro sink taken c
  have hcap : c.capacity = max buffer 1 :=
    (capacity_takeTurns _ turns).trans (capacity_eq_of_capacityFor? hcapacity)
  have room : 0 < c.capacity := hcap ▸ Nat.lt_of_lt_of_le Nat.zero_lt_one (Nat.le_max_right _ _)
  obtain ⟨processed, refused, ledger⟩ := exists_ledger limits sink capacity batches p turns
  refine ⟨fun r hr => ended_eq_run hr, exists_step_of_live room,
    fun t d h => work_lt_of_step (step_of_eq h), ended_complete room, hcap, _, _,
    ledger.accounts, ?_⟩
  intro hturns r hr
  have hstart : (start capacity batches p).AtMostOne :=
    ⟨Nat.zero_le _, fun r hr => absurd hr (Activity.waiting_ne_ended r)⟩
  have hone : c.AtMostOne := hstart.takeTurns hturns
  exact ledger.accounts.accepted_eq hr (hone.ended r hr)

/-- A sink that is busy at first and then gone. -/
def leaving : Sink Nat where
  post _ n := ⟨.error (if n = 0 then .sink "busy" else .sinkUnavailable "gone"), [], n + 1⟩

def knock : Batch := [⟨⟨"c", ""⟩, "n", false, [⟨⟨"A", none⟩, .ofMs 21 (by decide), .knock⟩]⟩]

/-- Four submits, the last of them after the pipeline has stopped; the third batch stays queued. -/
def hurried : List Turn := [.submit, .receive, .submit, .post, .receive, .submit, .post, .submit]

theorem follows_run_leaving :
    let sink := leaving.recorded
    let p : Pipeline (Recorded Nat) := .start ⟨0, []⟩
    let batches := List.replicate 4 knock
    let taken := Pipeline.taken .unlimited sink batches p.started
    let c := (start 1 batches p).takeTurns .unlimited sink hurried
    capacityFor? 0 = some 1 ∧ c.activity = .ended (.error (.sinkUnavailable "gone")) ∧
      c.queue = [knock] ∧ c.submits = [.ok (), .ok (), .ok (), .error .closed] ∧
      (.error (.sinkUnavailable "gone"), c.pipeline) = p.run .unlimited sink batches ∧
      ∃ accepted refused, Accounts batches taken c accepted refused := by
  intro sink p batches taken c
  have hcapacity : capacityFor? 0 = some 1 := by decide
  have hknock : assemble .unlimited knock =
      [⟨"c", "n", none, [⟨⟨"A", none⟩, 21, .knock⟩], false, 21⟩] := by
    rw [assemble_eq_plain]
    cbv
  have hturns : c.activity = .ended (.error (.sinkUnavailable "gone")) ∧ c.queue = [knock] ∧
      c.submits = [.ok (), .ok (), .ok (), .error .closed] := by
    simp [c, hurried, batches, p, sink, takeTurns, start, step?, submit?, receive?, post?,
      Pipeline.advance, Pipeline.process, Pipeline.started, Pipeline.start, Pipeline.logged,
      hknock, Sink.recorded, leaving, Failure.isRecoverable, List.replicate]
  obtain ⟨hended, hqueue, hsubmits⟩ := hturns
  obtain ⟨hrun, -, -, -, -, accepted, refused, haccounts, -⟩ :=
    follows_run hcapacity .unlimited leaving batches p hurried
  exact ⟨hcapacity, hended, hqueue, hsubmits, hrun _ hended, accepted, refused, haccounts⟩

end Notifications.Channel
