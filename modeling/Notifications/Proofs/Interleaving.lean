import Notifications.Pipeline.Channel
import Notifications.Proofs.Taken
/-!
A pipeline beside its producer. Whatever steps the two take, what is left to do comes to the same
as the run on all batches: no step changes this outlook, and once the pipeline has ended the outlook
is what it has come to. Each batch stands in one place: processed, in hand, queued, refused or yet
to be submitted.
-/
namespace Notifications

/-- The batch that the pipeline works on. -/
def Activity.inHand : Activity → List Batch
  | .working b => [b]
  | _ => []

theorem Activity.waiting_ne_ended (r : Except Failure Unit) : Activity.waiting ≠ .ended r := by
  intro h
  cases h

theorem Activity.working_ne_ended (b : Batch) (r : Except Failure Unit) :
    Activity.working b ≠ .ended r := by
  intro h
  cases h

namespace Channel

variable {σ : Type} {limits : Limits} {sink : Sink σ} {batches : List Batch} {p : Pipeline σ}
  {c d : Channel σ} {t : Turn}

/-- The open steps, one constructor for each thing that a step can do. -/
inductive Step (limits : Limits) (sink : Sink σ) : Turn → Channel σ → Channel σ → Prop
  | accept {capacity b rest submits queue activity p} (live : ∀ r, activity ≠ .ended r)
      (room : queue.length < capacity) :
      Step limits sink .submit ⟨capacity, b :: rest, submits, queue, activity, p⟩
        ⟨capacity, rest, submits ++ [.ok ()], queue ++ [b], activity, p⟩
  | refuse {capacity b rest submits queue r p} :
      Step limits sink .submit ⟨capacity, b :: rest, submits, queue, .ended r, p⟩
        ⟨capacity, rest, submits ++ [.error .closed], queue, .ended r, p⟩
  | take {capacity toSubmit submits b rest p} :
      Step limits sink .receive ⟨capacity, toSubmit, submits, b :: rest, .waiting, p⟩
        ⟨capacity, toSubmit, submits, rest, .working b, p⟩
  | carryOn {capacity toSubmit submits queue b p q} (h : p.advance limits sink b = (none, q)) :
      Step limits sink .post ⟨capacity, toSubmit, submits, queue, .working b, p⟩
        ⟨capacity, toSubmit, submits, queue, .waiting, q⟩
  | stop {capacity toSubmit submits queue b p f q} (h : p.advance limits sink b = (some f, q)) :
      Step limits sink .post ⟨capacity, toSubmit, submits, queue, .working b, p⟩
        ⟨capacity, toSubmit, submits, queue, .ended (.error f), q⟩
  | finish {capacity submits p} :
      Step limits sink .finish ⟨capacity, [], submits, [], .waiting, p⟩
        ⟨capacity, [], submits, [], .ended (.ok ()), p.finished⟩

theorem submit?_eq (h : c.submit? = some d) : Step limits sink .submit c d := by
  obtain ⟨capacity, toSubmit, submits, queue, activity, p⟩ := c
  cases toSubmit with
  | nil => simp [submit?] at h
  | cons b rest =>
    cases activity with
    | ended r =>
      simp only [submit?, Option.some.injEq] at h
      exact h ▸ .refuse
    | waiting =>
      simp only [submit?, Option.ite_none_right_eq_some, Option.some.injEq] at h
      exact h.2 ▸ .accept Activity.waiting_ne_ended h.1
    | working a =>
      simp only [submit?, Option.ite_none_right_eq_some, Option.some.injEq] at h
      exact h.2 ▸ .accept (Activity.working_ne_ended a) h.1

theorem step_of_eq (h : c.step? limits sink t = some d) : Step limits sink t c d := by
  cases t with
  | submit => exact submit?_eq h
  | receive =>
    obtain ⟨capacity, toSubmit, submits, queue, activity, p⟩ := c
    cases activity <;> cases queue <;> simp [step?, receive?] at h
    exact h ▸ .take
  | post =>
    obtain ⟨capacity, toSubmit, submits, queue, activity, p⟩ := c
    cases activity with
    | waiting => simp [step?, post?] at h
    | ended r => simp [step?, post?] at h
    | working b =>
      simp only [step?, post?] at h
      split at h
      · rename_i q hq
        exact Option.some.inj h ▸ .carryOn hq
      · rename_i f q hq
        exact Option.some.inj h ▸ .stop hq
  | finish =>
    obtain ⟨capacity, toSubmit, submits, queue, activity, p⟩ := c
    cases activity <;> cases queue <;> cases toSubmit <;> simp [step?, finish?] at h
    exact h ▸ .finish

/-- What every step keeps is kept whatever turns are taken. -/
theorem takeTurns_keeps {P : Channel σ → Prop}
    (keep : ∀ {t c d}, Step limits sink t c d → P c → P d) (h : P c) (turns : List Turn) :
    P (c.takeTurns limits sink turns) := by
  induction turns generalizing c with
  | nil => exact h
  | cons t turns ih =>
    apply ih
    show P ((c.step? limits sink t).getD c)
    cases hd : c.step? limits sink t with
    | none => exact h
    | some d => exact keep (step_of_eq hd) h

/-- What the pipeline has yet to process; nothing once it has ended. -/
def ahead (c : Channel σ) : List Batch :=
  match c.activity with
  | .ended _ => []
  | a => a.inHand ++ c.queue ++ c.toSubmit

theorem ahead_of_live (live : ∀ r, c.activity ≠ .ended r) :
    c.ahead = c.activity.inHand ++ c.queue ++ c.toSubmit := by
  rw [ahead]
  split
  · rename_i r hr
    exact absurd hr (live r)
  · rfl

/-- What the pipeline comes to if it processes all that is ahead of it. -/
def outlook (limits : Limits) (sink : Sink σ) (c : Channel σ) : Except Failure Unit × Pipeline σ :=
  match c.activity with
  | .ended r => (r, c.pipeline)
  | _ => Pipeline.drive limits sink c.ahead c.pipeline

theorem outlook_step (h : Step limits sink t c d) :
    d.outlook limits sink = c.outlook limits sink := by
  cases h with
  | @accept _ _ _ _ _ activity _ live _ =>
    cases activity with
    | ended r => exact absurd rfl (live r)
    | waiting => simp [outlook, ahead, Activity.inHand]
    | working b => simp [outlook, ahead, Activity.inHand]
  | refuse => rfl
  | take => rfl
  | carryOn h => exact (Pipeline.drive_of_none h).symm
  | stop h => exact (Pipeline.drive_of_some h).symm
  | finish => rfl

theorem outlook_takeTurns (c : Channel σ) (turns : List Turn) :
    (c.takeTurns limits sink turns).outlook limits sink = c.outlook limits sink :=
  takeTurns_keeps (P := fun d => d.outlook limits sink = c.outlook limits sink)
    (fun h hc => (outlook_step h).trans hc) rfl turns

theorem outlook_start (capacity : Nat) (batches : List Batch) (p : Pipeline σ) :
    (start capacity batches p).outlook limits sink = p.run limits sink batches := rfl

/-- The pipeline has ended on a failure that it cannot carry on after. -/
def Stopped (c : Channel σ) : Prop :=
  ∃ f : Failure, c.activity = .ended (.error f) ∧ f.isRecoverable = false

/-- Where each batch has gone, and how its submit went: those processed, in hand or queued were
accepted, and the refused ones came after the pipeline had stopped. -/
structure Ledger (limits : Limits) (sink : Sink σ) (batches : List Batch) (p : Pipeline σ)
    (c : Channel σ) (processed refused : List Batch) : Prop where
  places : batches = processed ++ c.activity.inHand ++ c.queue ++ refused ++ c.toSubmit
  taken : Pipeline.taken limits sink batches p =
    processed ++ Pipeline.taken limits sink c.ahead c.pipeline
  submits : c.submits =
    List.replicate (processed ++ c.activity.inHand ++ c.queue).length (.ok ()) ++
      List.replicate refused.length (.error .closed)
  stopped : refused ≠ [] → c.Stopped
  ending : ∀ r, c.activity = .ended r → c.Stopped ∨ r = .ok () ∧ c.queue = [] ∧ c.toSubmit = []
  room : c.queue.length ≤ c.capacity

theorem replicate_length_concat {α β : Type} (l : List α) (a : α) (x : β) :
    List.replicate (l ++ [a]).length x = List.replicate l.length x ++ [x] := by
  rw [List.length_append]
  exact List.replicate_succ'

theorem ledger_start (capacity : Nat) (batches : List Batch) (p : Pipeline σ) :
    Ledger limits sink batches p.started (start capacity batches p) [] [] where
  places := rfl
  taken := rfl
  submits := rfl
  stopped h := absurd rfl h
  ending r h := absurd h (Activity.waiting_ne_ended r)
  room := Nat.zero_le _

namespace Ledger

variable {processed refused : List Batch}

/-- Nothing is refused while the pipeline lives. -/
theorem refused_eq_nil (h : Ledger limits sink batches p c processed refused)
    (live : ∀ r, c.activity ≠ .ended r) : refused = [] := by
  rw [← Decidable.not_not (p := refused = [])]
  intro hne
  obtain ⟨f, hf, -⟩ := h.stopped hne
  exact live _ hf

theorem step (h : Ledger limits sink batches p c processed refused) (hs : Step limits sink t c d) :
    ∃ processed' refused', Ledger limits sink batches p d processed' refused' := by
  cases hs with
  | @accept capacity b rest submits queue activity q live room =>
    obtain rfl := h.refused_eq_nil live
    have hahead := h.taken
    rw [ahead_of_live live] at hahead
    refine ⟨processed, [], ?_, ?_, ?_, fun hne => absurd rfl hne,
      fun r hr => absurd hr (live r), ?_⟩
    · simpa using h.places
    · rw [hahead, ahead_of_live live]
      simp
    · have hsubmits := h.submits
      rw [List.length_nil, List.replicate_zero, List.append_nil] at hsubmits ⊢
      rw [← List.append_assoc, replicate_length_concat]
      exact congrArg (· ++ [.ok ()]) hsubmits
    · rw [List.length_append]
      exact room
  | @refuse capacity b rest submits queue r q =>
    have hstopped : Stopped (σ := σ) ⟨capacity, b :: rest, submits, queue, .ended r, q⟩ := by
      rcases h.ending r rfl with hstopped | ⟨-, -, hnone⟩
      · exact hstopped
      · cases hnone
    refine ⟨processed, refused ++ [b], ?_, h.taken, ?_, fun _ => hstopped, fun _ _ => Or.inl ?_,
      h.room⟩
    · simpa using h.places
    · rw [replicate_length_concat, ← List.append_assoc]
      exact congrArg (· ++ [.error .closed]) h.submits
    · exact hstopped
  | @take capacity toSubmit submits b rest q =>
    obtain rfl := h.refused_eq_nil Activity.waiting_ne_ended
    refine ⟨processed, [], ?_, h.taken, ?_, fun hne => absurd rfl hne,
      fun r hr => absurd hr (Activity.working_ne_ended b r), ?_⟩
    · simpa [Activity.inHand] using h.places
    · simpa [Activity.inHand] using h.submits
    · exact Nat.le_of_succ_le h.room
  | @carryOn capacity toSubmit submits queue b q q' hadvance =>
    obtain rfl := h.refused_eq_nil (Activity.working_ne_ended b)
    refine ⟨processed ++ [b], [], ?_, ?_, ?_, fun hne => absurd rfl hne,
      fun r hr => absurd hr (Activity.waiting_ne_ended r), h.room⟩
    · simpa [Activity.inHand] using h.places
    · rw [h.taken, List.append_assoc]
      exact congrArg (processed ++ ·) (Pipeline.taken_of_none hadvance)
    · simpa [Activity.inHand] using h.submits
  | @stop capacity toSubmit submits queue b q f q' hadvance =>
    obtain rfl := h.refused_eq_nil (Activity.working_ne_ended b)
    have hstopped : Stopped (σ := σ) ⟨capacity, toSubmit, submits, queue, .ended (.error f), q'⟩ :=
      ⟨f, rfl, Pipeline.isRecoverable_of_advance hadvance⟩
    refine ⟨processed ++ [b], [], ?_, ?_, ?_, fun _ => hstopped, fun _ _ => Or.inl hstopped, h.room⟩
    · simpa [Activity.inHand] using h.places
    · rw [h.taken, List.append_assoc]
      exact congrArg (processed ++ ·) (Pipeline.taken_of_some hadvance)
    · simpa [Activity.inHand] using h.submits
  | @finish capacity submits q =>
    obtain rfl := h.refused_eq_nil Activity.waiting_ne_ended
    refine ⟨processed, [], h.places, h.taken, h.submits, fun hne => absurd rfl hne, ?_, h.room⟩
    intro r hr
    cases hr
    exact Or.inr ⟨rfl, rfl, rfl⟩

end Ledger

end Channel

end Notifications
