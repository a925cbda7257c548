import Notifications.Sink.JsonLines
/-!
The calls of one post to its writer. Every write offers what is left of the line, so whatever the
writer takes at once, what gets through is the line from its front. A call that fails is the last,
and decides what the post answers.
-/
namespace Notifications

open Notice (Group)

variable {ω : Type}

namespace Writer

/-- A call to a writer with its answer; a write answers how many bytes it takes. -/
inductive Call
  | write (offered : List UInt8) (answer : Except IoError Nat)
  | flush (answer : Except IoError Unit)

namespace Call

/-- The bytes that reach the writer by a call. -/
def taken : Call → List UInt8
  | write offered (.ok n) => offered.take n
  | _ => []

/-- How a call fails. A write that takes nothing has failed. -/
def failure? : Call → Option IoError
  | write _ (.ok 0) => some (.ofKind .writeZero)
  | write _ (.error e) => some e
  | flush (.error e) => some e
  | _ => none

end Call

/-- A writer with the calls that have been made to it, the last one last. -/
structure Watched (ω : Type) where
  writer : ω
  calls : List Call

def watched (w : Writer ω) : Writer (Watched ω) where
  write offered s :=
    let (answer, writer) := w.write offered s.writer
    (answer, ⟨writer, s.calls ++ [.write offered (answer.map (·.val))]⟩)
  flush s :=
    let (answer, writer) := w.flush s.writer
    (answer, ⟨writer, s.calls ++ [.flush answer]⟩)

/-- The calls that write what is left of a line and flush it, and what comes of them. -/
inductive Writes : (left : List UInt8) → List Call → Except IoError Unit → Prop
  | flush {answer} : Writes [] [.flush answer] answer
  | part {left n calls answer} (takes : n ≠ 0) (rest : Writes (left.drop n) calls answer) :
      Writes left (.write left (.ok n) :: calls) answer
  | nothing {left} (unwritten : left ≠ []) :
      Writes left [.write left (.ok 0)] (.error (.ofKind .writeZero))
  | failure {left e} (unwritten : left ≠ []) : Writes left [.write left (.error e)] (.error e)

namespace Writes

variable {line : List UInt8} {calls : List Call} {answer : Except IoError Unit}

theorem taken_isPrefix (h : Writes line calls answer) : calls.flatMap Call.taken <+: line := by
  induction h with
  | flush => exact List.prefix_rfl
  | @part left n calls answer _ _ ih =>
    rw [List.flatMap_cons, Call.taken]
    have hjoin := (List.prefix_append_right_inj (left.take n)).2 ih
    rwa [List.take_append_drop] at hjoin
  | nothing => exact List.nil_prefix
  | failure => exact List.nil_prefix

/-- A write goes on where those before it have stopped. -/
theorem offered_eq (h : Writes line calls answer) {before after : List Call} {offered : List UInt8}
    {a : Except IoError Nat} (hcalls : calls = before ++ .write offered a :: after) :
    before.flatMap Call.taken ++ offered = line := by
  induction h generalizing before with
  | @part left n calls answer _ _ ih =>
    cases before with
    | nil =>
      cases hcalls
      rfl
    | cons call before =>
      obtain ⟨rfl, hrest⟩ := List.cons.inj hcalls
      rw [List.flatMap_cons, List.append_assoc, ih hrest, Call.taken, List.take_append_drop]
  | flush => cases before <;> simp at hcalls
  | nothing =>
    cases before with
    | nil => cases hcalls; rfl
    | cons call before => simp at hcalls
  | failure =>
    cases before with
    | nil => cases hcalls; rfl
    | cons call before => simp at hcalls

theorem ne_nil (h : Writes line calls answer) : calls ≠ [] := by
  cases h <;> exact List.cons_ne_nil _ _

/-- No call is made after one that fails. -/
theorem failure?_of_mem_dropLast (h : Writes line calls answer) :
    ∀ call ∈ calls.dropLast, call.failure? = none := by
  induction h with
  | @part left n calls answer hn rest ih =>
    have hcall : (Call.write left (.ok n)).failure? = none := by
      obtain ⟨k, rfl⟩ := Nat.exists_eq_succ_of_ne_zero hn
      rfl
    rw [List.dropLast_cons_of_ne_nil rest.ne_nil, List.forall_mem_cons]
    exact ⟨hcall, ih⟩
  | flush => simp
  | nothing => simp
  | failure => simp

/-- The first failure is what the writing answers. -/
theorem answer_eq (h : Writes line calls answer) :
    answer = (match calls.findSome? Call.failure? with
      | none => .ok ()
      | some e => .error e) := by
  induction h with
  | @flush answer => cases answer <;> rfl
  | @part left n calls answer hn _ ih =>
    obtain ⟨k, rfl⟩ := Nat.exists_eq_succ_of_ne_zero hn
    exact ih
  | nothing => rfl
  | failure => rfl

theorem answer_eq_ok_iff (h : Writes line calls answer) :
    answer = .ok () ↔ calls.flatMap Call.taken = line ∧ .flush (.ok ()) ∈ calls := by
  induction h with
  | @flush answer => cases answer <;> simp [Call.taken]
  | @part left n calls answer _ _ ih =>
    have hsplit : left.take n ++ calls.flatMap Call.taken = left ↔
        calls.flatMap Call.taken = left.drop n := by
      conv => lhs; rhs; rw [← List.take_append_drop n left]
      exact List.append_right_inj _
    rw [ih, List.flatMap_cons, Call.taken, hsplit]
    simp
  | nothing => simp
  | failure => simp

end Writes

end Writer

namespace Sink

open Writer (Call Watched Writes)

/-- To write a line is to make some calls, and to watch them changes nothing. -/
theorem writeLine_writes (w : Writer ω) (line : List UInt8) (o : Output ω) (made : List Call) :
    ∃ calls answer s, Writes line calls answer ∧
      writeLine w line o = (answer, ⟨s, o.bytes ++ calls.flatMap Call.taken⟩) ∧
      writeLine w.watched line ⟨⟨o.writer, made⟩, o.bytes⟩ =
        (answer, ⟨⟨s, made ++ calls⟩, o.bytes ++ calls.flatMap Call.taken⟩) := by
  fun_induction Output.writeAll w line o generalizing made with
  | case1 o =>
    refine ⟨[.flush (w.flush o.writer).1], _, (w.flush o.writer).2, .flush, ?_, ?_⟩
    · simp [writeLine, Output.writeAll, Output.flush, Call.taken]
    · simp [writeLine, Output.writeAll, Output.flush, Call.taken, Writer.watched]
  | case2 line o hline e s hwrite =>
    refine ⟨_, _, s, .failure (e := e) hline, ?_, ?_⟩
    · rw [writeLine, Output.writeAll, if_neg hline]
      simp [hwrite, Call.taken]
    · rw [writeLine, Output.writeAll, if_neg hline]
      simp [hwrite, Call.taken, Writer.watched, Except.map]
  | case3 line o hline h s hwrite =>
    refine ⟨_, _, s, .nothing hline, ?_, ?_⟩
    · rw [writeLine, Output.writeAll, if_neg hline]
      simp [hwrite, Call.taken]
    · rw [writeLine, Output.writeAll, if_neg hline]
      simp [hwrite, Call.taken, Writer.watched, Except.map]
  | case4 line o hline n h s hwrite ih =>
    obtain ⟨calls, answer, s', hwrites, hplain, hwatched⟩ :=
      ih (made ++ [.write line (.ok (n + 1))])
    refine ⟨_, answer, s', .part (Nat.succ_ne_zero n) hwrites, ?_, ?_⟩
    · rw [List.flatMap_cons, Call.taken, ← List.append_assoc, ← hplain, writeLine, Output.writeAll,
        if_neg hline]
      simp only [hwrite, writeLine]
    · rw [List.flatMap_cons, Call.taken, ← List.append_assoc, List.append_cons, ← hwatched,
        writeLine, Output.writeAll, if_neg hline]
      simp only [hwrite, writeLine, Writer.watched, Except.map]

/-- What a post answers when its line has been written, or not. -/
def answerFor : Except IoError Unit → Except Failure Unit
  | .ok () => .ok ()
  | .error e => .error (.ofWrite e)

/-- The calls that a post makes to the writer. -/
def calls (w : Writer ω) (groups : List Group) (o : Output ω) : List Call :=
  ((jsonLines w.watched).post groups ⟨⟨o.writer, []⟩, o.bytes⟩).sink.writer.calls

theorem post_writes (w : Writer ω) (groups : List Group) (o : Output ω) :
    ∃ answer, Writes (jsonLine groups) (calls w groups o) answer ∧
      ((jsonLines w).post groups o).result = answerFor answer ∧
      ((jsonLines w).post groups o).sink.bytes =
        o.bytes ++ (calls w groups o).flatMap Call.taken := by
  obtain ⟨made, answer, s, hwrites, hplain, hwatched⟩ := writeLine_writes w (jsonLine groups) o []
  have hcalls : calls w groups o = made := by
    simp only [calls, jsonLines, hwatched]
    cases answer <;> rfl
  refine ⟨answer, hcalls ▸ hwrites, ?_, ?_⟩
  · simp only [jsonLines, hplain]
    cases answer <;> rfl
  · rw [hcalls]
    simp only [jsonLines, hplain]
    cases answer <;> rfl

end Sink

open Writer (Call)

/-- Whatever the writer does. What gets through is a part of the line from its front, each write
going on where the last one stopped, and no call follows one that has failed. The post succeeds
exactly when the whole line got through and was flushed; if not, the first call that failed tells
whether the reader is gone or a later post may succeed. -/
theorem post_of_calls (w : Writer ω) (groups : List Group) (o : Output ω) :
    let posted := (Sink.jsonLines w).post groups o
    let line := jsonLine groups
    let calls := Sink.calls w groups o
    let through := calls.flatMap Call.taken
    let failure? := calls.findSome? Call.failure?
    posted.sink.bytes = o.bytes ++ through ∧ through <+: line ∧
      (∀ before offered answer after, calls = before ++ .write offered answer :: after →
        before.flatMap Call.taken ++ offered = line) ∧
      (∀ call ∈ calls.dropLast, call.failure? = none) ∧
      (posted.result = .ok () ↔ through = line ∧ .flush (.ok ()) ∈ calls) ∧
      ((∃ text, posted.result = .error (.sinkUnavailable text)) ↔
        ∃ e, failure? = some e ∧ e.kind = .brokenPipe) ∧
      (posted.result = .ok () ∨ (∃ text, posted.result = .error (.sinkUnavailable text)) ∨
        ∃ e, failure? = some e ∧ posted.result = .error (.io e) ∧
          (Failure.io e).isRecoverable = true) := by
  intro posted line calls through failure?
  obtain ⟨answer, hwrites, hresult, hbytes⟩ := Sink.post_writes w groups o
  have hanswer : answer = (match failure? with | none => .ok () | some e => .error e) :=
    hwrites.answer_eq
  have hresult : posted.result = Sink.answerFor answer := hresult
  refine ⟨hbytes, hwrites.taken_isPrefix, fun before offered answer after h => hwrites.offered_eq h,
    hwrites.failure?_of_mem_dropLast, ?_, ?_⟩
  · rw [hresult, ← hwrites.answer_eq_ok_iff]
    cases answer <;> simp [Sink.answerFor]
  · rw [hresult, hanswer]
    cases failure? with
    | none => simp [Sink.answerFor]
    | some e =>
      by_cases hkind : e.kind = .brokenPipe
      · simp [Sink.answerFor, Failure.ofWrite, hkind]
      · simp [Sink.answerFor, Failure.ofWrite, hkind, Failure.isRecoverable]

end Notifications
