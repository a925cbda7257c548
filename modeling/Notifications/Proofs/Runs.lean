import Notifications.Proofs.Counters
/-!
What a run posts and how it ends. Posts are made in the order of the batches until one is answered
by a failure that is final; that failure ends the run, and all others are passed over. So a run on
two lists is a run on the first and then one on the second, and a post whose failure is passed over
has no part in the other posts.
-/
namespace Notifications

open Notice (Group)

variable {σ τ : Type} {limits : Limits} {sink : Sink σ} {other : Sink τ} {b : Batch}
  {batches xs : List Batch} {groups extra : List Group} {posts : List (List Group)} {s : σ}
  {answer : Except Failure Unit} {f : Failure}

/-- The failures after which nothing more can be posted. -/
inductive Failure.IsFinal : Failure → Prop
  | sinkUnavailable (text : String) : IsFinal (.sinkUnavailable text)
  | configuration (text : String) : IsFinal (.configuration text)
  | closed : IsFinal .closed

theorem Failure.isRecoverable_eq_false_iff : f.isRecoverable = false ↔ f.IsFinal := by
  constructor
  · intro h
    cases f with
    | sinkUnavailable text => exact .sinkUnavailable text
    | configuration text => exact .configuration text
    | closed => exact .closed
    | io e => cases h
    | json e => cases h
    | sink text => cases h
  · rintro (_ | _ | _) <;> rfl

namespace Sink

/-- The failure in an answer that ends a run. -/
def final? : Except Failure Unit → Option Failure
  | .ok () => none
  | .error f => if f.isRecoverable then none else some f

theorem final?_eq_some_iff : final? answer = some f ↔ answer = .error f ∧ f.IsFinal := by
  cases answer with
  | ok u => simp [final?]
  | error g =>
    rw [final?, Except.error.injEq, ← Failure.isRecoverable_eq_false_iff]
    cases hg : g.isRecoverable with
    | true =>
      simp only [if_true, reduceCtorEq, false_iff]
      rintro ⟨rfl, hf⟩
      rw [hg] at hf
      cases hf
    | false =>
      simp only [Bool.false_eq_true, if_false, Option.some.injEq]
      exact ⟨fun h => ⟨h, h ▸ hg⟩, And.left⟩

theorem final?_eq_none_iff : final? answer = none ↔ ∀ f, answer = .error f → ¬ f.IsFinal := by
  rw [Option.eq_none_iff_forall_ne_some]
  simp only [ne_eq, final?_eq_some_iff, not_and]

/-- No post is answered by a failure that is final. -/
def Endures (sink : Sink σ) (posts : List (List Group)) (s : σ) : Prop :=
  ∀ f, .error f ∈ sink.answers posts s → ¬ f.IsFinal

theorem endures_nil (sink : Sink σ) (s : σ) : sink.Endures [] s := by
  intro f hf
  cases hf

theorem endures_cons : sink.Endures (groups :: posts) s ↔
    final? (sink.post groups s).result = none ∧ sink.Endures posts (sink.post groups s).sink := by
  simp only [Endures, answers, List.mem_cons, final?_eq_none_iff]
  constructor
  · intro h
    exact ⟨fun f hf => h f (.inl hf.symm), fun f hf => h f (.inr hf)⟩
  · rintro ⟨hfirst, hrest⟩ f (hf | hf)
    · exact hfirst f hf.symm
    · exact hrest f hf

end Sink

theorem postsOf_cons_of_nil (h : assemble limits b = []) (batches : List Batch) :
    postsOf limits (b :: batches) = postsOf limits batches := by
  simp [postsOf, h]

theorem postsOf_cons_of_ne_nil (h : assemble limits b ≠ []) (batches : List Batch) :
    postsOf limits (b :: batches) = assemble limits b :: postsOf limits batches := by
  simp [postsOf, h]

namespace Pipeline

/-- How a run on some batches comes out when the sink is in state `s`: the posts that are made, the
number of batches that are taken, and the answer of the run. -/
inductive RunsTo (limits : Limits) (sink : Sink σ) (s : σ) :
    List Batch → List (List Group) → Nat → Except Failure Unit → Prop
  /-- Every batch is taken, and posted unless it assembles to nothing. -/
  | through {batches : List Batch} (endures : sink.Endures (postsOf limits batches) s) :
      RunsTo limits sink s batches (postsOf limits batches) batches.length (.ok ())
  /-- The post of `b` is the first to be answered by a final failure. -/
  | stopped {before b rest f} (endures : sink.Endures (postsOf limits before) s)
      (nonempty : assemble limits b ≠ [])
      (answer : (sink.post (assemble limits b) (sink.after (postsOf limits before) s)).result =
        .error f)
      (final : f.IsFinal) :
      RunsTo limits sink s (before ++ b :: rest) (postsOf limits before ++ [assemble limits b])
        (before.length + 1) (.error f)

namespace RunsTo

variable {n : Nat}

theorem nothing (h : assemble limits b = []) (hrest : RunsTo limits sink s batches posts n answer) :
    RunsTo limits sink s (b :: batches) posts (n + 1) answer := by
  cases hrest with
  | through endures =>
    rw [← postsOf_cons_of_nil h batches] at endures ⊢
    exact .through endures
  | @stopped before c rest f endures nonempty answer final =>
    rw [← postsOf_cons_of_nil h before] at endures answer ⊢
    exact .stopped endures nonempty answer final

theorem posted (hne : assemble limits b ≠ [])
    (hpassed : Sink.final? (sink.post (assemble limits b) s).result = none)
    (hrest : RunsTo limits sink (sink.post (assemble limits b) s).sink batches posts n answer) :
    RunsTo limits sink s (b :: batches) (assemble limits b :: posts) (n + 1) answer := by
  have hcons :
      ∀ before, sink.Endures (postsOf limits before) (sink.post (assemble limits b) s).sink →
      sink.Endures (postsOf limits (b :: before)) s := by
    intro before endures
    rw [postsOf_cons_of_ne_nil hne]
    exact Sink.endures_cons.2 ⟨hpassed, endures⟩
  cases hrest with
  | through endures =>
    rw [← postsOf_cons_of_ne_nil hne batches]
    exact .through (hcons batches endures)
  | @stopped before c rest f endures nonempty answer final =>
    rw [← List.cons_append, ← List.cons_append, ← postsOf_cons_of_ne_nil hne before]
    refine .stopped (hcons before endures) nonempty ?_ final
    rw [postsOf_cons_of_ne_nil hne before]
    exact answer

end RunsTo

/-- A batch that is posted: whether it ends the run is a matter of the answer alone. -/
theorem advance_of_something (h : assemble limits b ≠ []) (sink : Sink σ) (p : Pipeline σ) :
    let posted := sink.post (assemble limits b) p.sink
    ∃ q, p.advance limits sink b = (Sink.final? posted.result, q) ∧ q.sink = posted.sink ∧
      q.stats.batchesReceived = p.stats.batchesReceived + 1 := by
  intro posted
  have hsome : (assemble limits b).isEmpty = false := by simpa using h
  rw [advance, process]
  simp only [hsome, Bool.false_eq_true, if_false]
  rcases hanswer : posted.result with f | _
  · rw [Sink.final?]
    cases hf : f.isRecoverable <;> simp only [posted, hf] <;> exact ⟨_, rfl, rfl, rfl⟩
  · simp only [posted]
    exact ⟨_, rfl, rfl, rfl⟩

theorem runsTo_drive (limits : Limits) (sink : Sink σ) (batches : List Batch) (p : Pipeline σ) :
    let r := p.drive limits sink batches
    ∃ posts n, RunsTo limits sink p.sink batches posts n r.1 ∧ r.2.sink = sink.after posts p.sink ∧
      r.2.stats.batchesReceived = p.stats.batchesReceived + n := by
  induction batches generalizing p with
  | nil => exact ⟨[], 0, .through (sink.endures_nil _), rfl, rfl⟩
  | cons b batches ih =>
    by_cases hempty : assemble limits b = []
    · obtain ⟨log, hadvance⟩ := advance_of_nothing hempty sink p
      obtain ⟨posts, n, hruns, hsink, hcount⟩ := ih ⟨_, p.sink, log⟩
      rw [drive_of_none hadvance]
      exact ⟨posts, n + 1, hruns.nothing hempty, hsink,
        by rw [hcount, Nat.add_assoc, Nat.add_comm n]⟩
    · obtain ⟨q, hadvance, hq, hreceived⟩ := advance_of_something hempty sink p
      cases hanswer : Sink.final? (sink.post (assemble limits b) p.sink).result with
      | none =>
        rw [hanswer] at hadvance
        obtain ⟨posts, n, hruns, hsink, hcount⟩ := ih q
        rw [hq] at hruns hsink
        rw [drive_of_none hadvance]
        refine ⟨assemble limits b :: posts, n + 1, hruns.posted hempty hanswer, hsink, ?_⟩
        rw [hcount, hreceived, Nat.add_assoc, Nat.add_comm 1]
      | some f =>
        rw [hanswer] at hadvance
        obtain ⟨herror, hfinal⟩ := Sink.final?_eq_some_iff.1 hanswer
        rw [drive_of_some hadvance]
        have hruns : RunsTo limits sink p.sink ([] ++ b :: batches)
            (postsOf limits [] ++ [assemble limits b]) 1 (.error f) :=
          .stopped (sink.endures_nil _) hempty herror hfinal
        exact ⟨[assemble limits b], 1, hruns, hq, hreceived⟩

/-! ### One run after another -/

/-- Two pipelines that differ at most in what they have logged. -/
structure Agrees (p q : Pipeline τ) : Prop where
  stats : p.stats = q.stats
  sink : p.sink = q.sink

namespace Agrees

variable {p q : Pipeline τ}

theorem advance (h : Agrees p q) (limits : Limits) (sink : Sink τ) (b : Batch) :
    (p.advance limits sink b).1 = (q.advance limits sink b).1 ∧
      Agrees (p.advance limits sink b).2 (q.advance limits sink b).2 := by
  obtain ⟨stats, t, log⟩ := p
  obtain ⟨stats', t', log'⟩ := q
  obtain ⟨rfl, rfl⟩ : stats = stats' ∧ t = t' := ⟨h.stats, h.sink⟩
  by_cases hempty : assemble limits b = []
  · simp only [Pipeline.advance, process, hempty, List.isEmpty_nil, if_true]
    exact ⟨trivial, rfl, rfl⟩
  · have hsome : (assemble limits b).isEmpty = false := by simpa using hempty
    simp only [Pipeline.advance, process, hsome, Bool.false_eq_true, if_false]
    cases (sink.post (assemble limits b) t).result with
    | ok u => exact ⟨rfl, rfl, rfl⟩
    | error f => cases hf : f.isRecoverable <;> simp only [hf] <;> exact ⟨rfl, rfl, rfl⟩

theorem drive (h : Agrees p q) (limits : Limits) (sink : Sink τ) (batches : List Batch) :
    (p.drive limits sink batches).1 = (q.drive limits sink batches).1 ∧
      Agrees (p.drive limits sink batches).2 (q.drive limits sink batches).2 := by
  induction batches generalizing p q with
  | nil => exact ⟨rfl, h.stats, h.sink⟩
  | cons b batches ih =>
    obtain ⟨hstop, hnext⟩ := h.advance limits sink b
    rcases hp : p.advance limits sink b with ⟨stop, p'⟩
    rcases hq : q.advance limits sink b with ⟨stop', q'⟩
    rw [hp, hq] at hstop hnext
    obtain rfl : stop = stop' := hstop
    cases stop with
    | none =>
      rw [drive_of_none hp, drive_of_none hq]
      exact ih hnext
    | some f =>
      rw [drive_of_some hp, drive_of_some hq]
      exact ⟨rfl, hnext⟩

end Agrees

section Append

variable {sink : Sink τ} {p q : Pipeline τ}

theorem drive_append_of_ok (h : drive limits sink xs p = (.ok (), q)) (ys : List Batch) :
    ∃ q', Agrees q' q ∧ drive limits sink (xs ++ ys) p = drive limits sink ys q' := by
  induction xs generalizing p with
  | nil =>
    cases h
    exact ⟨p, ⟨rfl, rfl⟩, rfl⟩
  | cons b xs ih =>
    rcases hadvance : p.advance limits sink b with ⟨_ | f, p'⟩
    · rw [drive_of_none hadvance] at h
      rw [List.cons_append, drive_of_none hadvance]
      exact ih h
    · rw [drive_of_some hadvance] at h
      cases h

theorem drive_append_of_error (h : drive limits sink xs p = (.error f, q)) (ys : List Batch) :
    drive limits sink (xs ++ ys) p = (.error f, q) := by
  induction xs generalizing p with
  | nil => cases h
  | cons b xs ih =>
    rcases hadvance : p.advance limits sink b with ⟨_ | g, p'⟩
    · rw [drive_of_none hadvance] at h
      rw [List.cons_append, drive_of_none hadvance]
      exact ih h
    · rw [drive_of_some hadvance] at h
      rw [List.cons_append, drive_of_some hadvance, h]

/-- A run that has ended well is gone on with by another one. -/
theorem run_append_of_ok (h : p.run limits sink xs = (.ok (), q)) (ys : List Batch) :
    (p.run limits sink (xs ++ ys)).1 = (q.run limits sink ys).1 ∧
      Agrees (p.run limits sink (xs ++ ys)).2 (q.run limits sink ys).2 := by
  obtain ⟨q', hagrees, hdrive⟩ := drive_append_of_ok h ys
  have started : Agrees q' q.started := ⟨hagrees.stats, hagrees.sink⟩
  rw [run, hdrive]
  exact started.drive limits sink ys

end Append

/-! ### A post less -/

/-- A run is a matter of what the posts are answered. -/
theorem drive_of_sameAnswers {p : Pipeline σ} {q : Pipeline τ}
    (h : sink.answers (postsOf limits batches) p.sink =
      other.answers (postsOf limits batches) q.sink) :
    let r := p.drive limits sink batches
    let r' := q.drive limits other batches
    r.1 = r'.1 ∧
      ∃ posts, r.2.sink = sink.after posts p.sink ∧ r'.2.sink = other.after posts q.sink := by
  induction batches generalizing p q with
  | nil => exact ⟨rfl, [], rfl, rfl⟩
  | cons b batches ih =>
    by_cases hempty : assemble limits b = []
    · obtain ⟨_, hp⟩ := advance_of_nothing hempty sink p
      obtain ⟨_, hq⟩ := advance_of_nothing hempty other q
      rw [postsOf_cons_of_nil hempty] at h
      rw [drive_of_none hp, drive_of_none hq]
      exact ih h
    · obtain ⟨p', hp, hpsink, -⟩ := advance_of_something hempty sink p
      obtain ⟨q', hq, hqsink, -⟩ := advance_of_something hempty other q
      rw [postsOf_cons_of_ne_nil hempty, Sink.answers, Sink.answers] at h
      obtain ⟨hanswer, hrest⟩ := List.cons.inj h
      rw [hanswer] at hp
      rw [← hpsink, ← hqsink] at hrest
      cases hstop : Sink.final? (other.post (assemble limits b) q.sink).result with
      | none =>
        rw [hstop] at hp hq
        rw [drive_of_none hp, drive_of_none hq]
        obtain ⟨hresult, posts, hposts, hposts'⟩ := ih hrest
        rw [hpsink] at hposts
        rw [hqsink] at hposts'
        exact ⟨hresult, assemble limits b :: posts, hposts, hposts'⟩
      | some f =>
        rw [hstop] at hp hq
        rw [drive_of_some hp, drive_of_some hq]
        exact ⟨rfl, [assemble limits b], hpsink, hqsink⟩

end Pipeline

namespace Sink

/-- The sink with one of its answers left out: unseen by the pipeline `extra` is posted to it, when
`n` posts have been made and before the next one is. The state has the `n` that is left, until
then. -/
def without (sink : Sink σ) (extra : List Group) : Sink (σ × Option Nat) where
  post groups
    | (s, some 0) =>
      let posted := sink.post groups (sink.post extra s).sink
      ⟨posted.result, posted.events, posted.sink, none⟩
    | (s, left) =>
      let posted := sink.post groups s
      ⟨posted.result, posted.events, posted.sink, left.map (· - 1)⟩

theorem answers_without_none (sink : Sink σ) (extra : List Group) (posts : List (List Group))
    (s : σ) :
    (sink.without extra).answers posts (s, none) = sink.answers posts s := by
  induction posts generalizing s with
  | nil => rfl
  | cons groups posts ih =>
    rw [answers, answers, ← ih]
    rfl

/-- From the answer on that is left out. -/
theorem answers_without_zero (sink : Sink σ) (extra : List Group) (posts : List (List Group))
    (s : σ) :
    (sink.without extra).answers posts (s, some 0) =
      sink.answers posts (sink.post extra s).sink := by
  cases posts with
  | nil => rfl
  | cons groups posts =>
    rw [answers, answers, ← answers_without_none sink extra]
    rfl

/-- Up to the answer that is left out. -/
theorem without_append (sink : Sink σ) (extra : List Group) (posts : List (List Group)) (s : σ)
    (n : Nat) :
    (sink.without extra).answers posts (s, some (posts.length + n)) = sink.answers posts s ∧
      (sink.without extra).after posts (s, some (posts.length + n)) =
        (sink.after posts s, some n) := by
  induction posts generalizing s with
  | nil => simp [answers, after]
  | cons groups posts ih =>
    obtain ⟨hanswers, hafter⟩ := ih (sink.post groups s).sink
    have hlength : (groups :: posts).length + n = posts.length + n + 1 := by
      rw [List.length_cons]
      omega
    rw [hlength]
    constructor
    · rw [answers, answers, ← hanswers]
      rfl
    · exact hafter

/-! ### Sinks that keep what is posted to them -/

theorem answers_recorded (sink : Sink σ) (posts : List (List Group)) (r : Recorded σ) :
    sink.recorded.answers posts r = sink.answers posts r.sink := by
  induction posts generalizing r with
  | nil => rfl
  | cons groups posts ih =>
    rw [answers, answers, ih]
    rfl

theorem after_recorded (sink : Sink σ) (posts : List (List Group)) (r : Recorded σ) :
    sink.recorded.after posts r = ⟨sink.after posts r.sink, r.posts ++ posts⟩ := by
  induction posts generalizing r with
  | nil => simp [after]
  | cons groups posts ih =>
    have hrest := ih (sink.recorded.post groups r).sink
    simpa [after, recorded] using hrest

end Sink

namespace Pipeline

theorem RunsTo.of_recorded {r : Recorded σ} {n : Nat}
    (h : RunsTo limits sink.recorded r batches posts n answer) :
    RunsTo limits sink r.sink batches posts n answer := by
  have hendures : ∀ posts, sink.recorded.Endures posts r → sink.Endures posts r.sink := by
    intro posts h f hf
    rw [← Sink.answers_recorded] at hf
    exact h f hf
  cases h with
  | through endures => exact .through (hendures _ endures)
  | stopped endures nonempty answer final =>
    rw [Sink.after_recorded] at answer
    exact .stopped (hendures _ endures) nonempty answer final

theorem drive_append_after {p q : Pipeline σ} (h : p.drive limits sink xs = (.ok (), q))
    (ys : List Batch) :
    ∃ p' : Pipeline σ, p'.sink = sink.after (postsOf limits xs) p.sink ∧
      p.drive limits sink (xs ++ ys) = p'.drive limits sink ys := by
  obtain ⟨posts, n, hruns, hsink, -⟩ := runsTo_drive limits sink xs p
  obtain ⟨p', hagrees, hdrive⟩ := drive_append_of_ok h ys
  rw [h] at hruns hsink
  cases hruns with
  | through => exact ⟨p', hagrees.sink.trans hsink, hdrive⟩

theorem drive_of_passed (hne : assemble limits b ≠ []) {p : Pipeline σ}
    (hpassed : Sink.final? (sink.post (assemble limits b) p.sink).result = none) (ys : List Batch) :
    ∃ p' : Pipeline σ, p'.sink = (sink.post (assemble limits b) p.sink).sink ∧
      p.drive limits sink (b :: ys) = p'.drive limits sink ys := by
  obtain ⟨p', hadvance, hp', -⟩ := advance_of_something hne sink p
  rw [hpassed] at hadvance
  exact ⟨p', hp', drive_of_none hadvance⟩

/-- The pipeline with a sink in another state, and the same record of what has been posted. -/
def withSink (p : Pipeline (Recorded σ)) (t : τ) : Pipeline (Recorded τ) :=
  ⟨p.stats, ⟨t, p.sink.posts⟩, p.log⟩

/-- Up to the batch that is left out the runs are in step; from there on they are again, as the
pipeline is told of nothing but the answers to its own posts. -/
theorem run_without {p q : Pipeline (Recorded σ)}
    (hxs : p.run limits sink.recorded xs = (.ok (), q))
    (hne : assemble limits b ≠ [])
    (hf : (sink.post (assemble limits b) (sink.after (postsOf limits xs) p.sink.sink)).result =
      .error f)
    (hpassed : ¬ f.IsFinal) (ys : List Batch) :
    let earlier := postsOf limits xs
    let r := p.run limits sink.recorded (xs ++ b :: ys)
    let r' := (p.withSink (p.sink.sink, some earlier.length)).run limits
      (sink.without (assemble limits b)).recorded (xs ++ ys)
    r.1 = r'.1 ∧ ∃ later, r.2.sink.posts = p.sink.posts ++ earlier ++ assemble limits b :: later ∧
      r'.2.sink.posts = p.sink.posts ++ earlier ++ later := by
  intro earlier r r'
  obtain ⟨hanswers, hafter⟩ := sink.without_append (assemble limits b) earlier p.sink.sink 0
  -- the batch is posted, and its failure passed over
  obtain ⟨q₁, hq₁, hr⟩ := drive_append_after hxs (b :: ys)
  rw [Sink.after_recorded] at hq₁
  have hstop : Sink.final? (sink.recorded.post (assemble limits b) q₁.sink).result = none := by
    rw [hq₁]
    refine Sink.final?_eq_none_iff.2 fun g hg => ?_
    obtain rfl : f = g := Except.error.inj (hf.symm.trans hg)
    exact hpassed
  obtain ⟨q₂, hq₂, hr₂⟩ := drive_of_passed hne hstop ys
  -- the run without it comes to the same place
  let p' := (p.withSink (p.sink.sink, some earlier.length)).started
  have hearlier : sink.recorded.answers earlier p.started.sink =
      (sink.without (assemble limits b)).recorded.answers earlier p'.sink := by
    rw [Sink.answers_recorded, Sink.answers_recorded]
    exact hanswers.symm
  obtain ⟨hresult, -⟩ := drive_of_sameAnswers hearlier
  rcases hxs' : p'.drive limits (sink.without (assemble limits b)).recorded xs with ⟨answer, q'⟩
  obtain rfl : .ok () = answer := by
    rw [hxs'] at hresult
    exact (congrArg Prod.fst hxs).symm.trans hresult
  obtain ⟨q₃, hq₃, hr'⟩ := drive_append_after hxs' ys
  rw [Sink.after_recorded] at hq₃
  have hlater : sink.recorded.answers (postsOf limits ys) q₂.sink =
      (sink.without (assemble limits b)).recorded.answers (postsOf limits ys) q₃.sink := by
    rw [Sink.answers_recorded, Sink.answers_recorded, hq₂, hq₁, hq₃]
    exact (sink.answers_without_zero (assemble limits b) _ _).symm.trans (congrArg _ hafter.symm)
  obtain ⟨hresult, later, hposts, hposts'⟩ := drive_of_sameAnswers hlater
  rw [← hr₂, ← hr] at hresult hposts
  rw [← hr'] at hresult hposts'
  refine ⟨hresult, later, ?_, ?_⟩
  · refine (congrArg Recorded.posts hposts).trans ?_
    rw [Sink.after_recorded, hq₂, hq₁, List.append_cons]
    rfl
  · refine (congrArg Recorded.posts hposts').trans ?_
    rw [Sink.after_recorded, hq₃]
    rfl

/-- Whatever the sink answers, and whatever the pipeline has done before. A run posts what each
batch assembles to, up to the first post whose failure is final; it takes no batch after that one,
and answers with that failure. Two lists are run like one after the other, the second only if the
first ends well. A batch whose post fails and is passed over can be left out, with the answer to it:
the other posts and how the run ends do not depend on it. -/
theorem run_posts_until_final (limits : Limits) (sink : Sink σ) (p : Pipeline (Recorded σ)) :
    (∀ batches, let r := p.run limits sink.recorded batches
      ∃ posts n, RunsTo limits sink p.sink.sink batches posts n r.1 ∧
        r.2.sink.posts = p.sink.posts ++ posts ∧
        r.2.stats.batchesReceived = p.stats.batchesReceived + n) ∧
    (∀ xs ys q, p.run limits sink.recorded xs = (.ok (), q) →
      let r := p.run limits sink.recorded (xs ++ ys)
      let r' := q.run limits sink.recorded ys
      r.1 = r'.1 ∧ Agrees r.2 r'.2) ∧
    (∀ xs ys f q, p.run limits sink.recorded xs = (.error f, q) →
      p.run limits sink.recorded (xs ++ ys) = (.error f, q)) ∧
    (∀ xs b ys f q, p.run limits sink.recorded xs = (.ok (), q) → assemble limits b ≠ [] →
      (sink.post (assemble limits b) (sink.after (postsOf limits xs) p.sink.sink)).result =
        .error f →
      ¬ f.IsFinal →
      let earlier := postsOf limits xs
      let r := p.run limits sink.recorded (xs ++ b :: ys)
      let r' := (p.withSink (p.sink.sink, some earlier.length)).run limits
        (sink.without (assemble limits b)).recorded (xs ++ ys)
      r.1 = r'.1 ∧ ∃ later, r.2.sink.posts = p.sink.posts ++ earlier ++ assemble limits b :: later ∧
        r'.2.sink.posts = p.sink.posts ++ earlier ++ later) := by
  refine ⟨?_, fun xs ys q h => run_append_of_ok h ys, fun xs ys f q h => drive_append_of_error h ys,
    fun xs b ys f q hxs hne hf hpassed => run_without hxs hne hf hpassed ys⟩
  intro batches r
  obtain ⟨posts, n, hruns, hsink, hcount⟩ := runsTo_drive limits sink.recorded batches p.started
  rw [Sink.after_recorded] at hsink
  exact ⟨posts, n, hruns.of_recorded, congrArg Recorded.posts hsink, hcount⟩

open Channel (knock leaving) in
/-- The first of three posts finds the sink busy, the second finds it gone. Without the first batch
there is one post less, and the run ends as it did. -/
theorem run_posts_until_final_leaving :
    let p : Pipeline (Recorded Nat) := .start ⟨0, []⟩
    let posted := assemble .unlimited knock
    let r := p.run .unlimited leaving.recorded [knock, knock, knock]
    let r' :=
      (p.withSink (0, some 0)).run .unlimited (leaving.without posted).recorded [knock, knock]
    r.1 = .error (.sinkUnavailable "gone") ∧ r'.1 = r.1 ∧
      r.2.sink.posts = [posted, posted] ∧ r'.2.sink.posts = [posted] := by
  intro p posted r r'
  have hknock : assemble .unlimited knock =
      [⟨"c", "n", none, [⟨⟨"A", none⟩, 21, .knock⟩], false, 21⟩] := by
    rw [assemble_eq_plain]
    cbv
  have hr : r.1 = .error (.sinkUnavailable "gone") ∧ r.2.sink.posts = [posted, posted] := by
    simp [r, p, posted, run, drive, advance, process, started, start, logged, hknock, Sink.recorded,
      leaving, Failure.isRecoverable]
  obtain ⟨hgone, htwo⟩ := hr
  obtain ⟨-, -, -, hwithout⟩ := run_posts_until_final .unlimited leaving p
  obtain ⟨hresult, later, hposts, hposts'⟩ :=
    hwithout [] knock [knock, knock] (.sink "busy") _ rfl (by simp [hknock]) rfl (by rintro ⟨⟩)
  obtain rfl : later = [posted] := List.cons.inj (hposts.symm.trans htwo) |>.2
  exact ⟨hgone, hresult.symm, htwo, hposts'⟩

end Pipeline

end Notifications
