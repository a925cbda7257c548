import Mathlib.Data.List.Induction
import Notifications.Proofs.Lines
import Notifications.Proofs.NoticeLines
import Notifications.Proofs.Writing
/-!
Posts that fail half-way. What they got through stays in the output, and a later post goes on from
there: its line stands on its own exactly when the last post before it of which anything got through
got its whole line through.
-/
namespace Notifications

open Notice (Group)

variable {σ ω : Type} {w : Writer ω} {groups : List Group} {o : Output ω}

namespace Sink

theorem after_concat (sink : Sink σ) (posts : List (List Group)) (groups : List Group) (s : σ) :
    sink.after (posts ++ [groups]) s = (sink.post groups (sink.after posts s)).sink := by
  rw [after, List.foldl_append]
  rfl

/-- What each of some posts gets through. -/
def throughs (w : Writer ω) : List (List Group) → Output ω → List (List Group × List UInt8)
  | [], _ => []
  | groups :: posts, o =>
    (groups, through w groups o) :: throughs w posts ((jsonLines w).post groups o).sink

theorem throughs_concat (w : Writer ω) (posts : List (List Group)) (groups : List Group)
    (o : Output ω) : throughs w (posts ++ [groups]) o =
      throughs w posts o ++ [(groups, through w groups ((jsonLines w).after posts o))] := by
  induction posts generalizing o with
  | nil => rfl
  | cons first posts ih =>
    rw [List.cons_append, throughs, ih, throughs, List.cons_append]
    rfl

/-- Output is only ever added to. -/
theorem after_bytes (w : Writer ω) (posts : List (List Group)) (o : Output ω) :
    ∃ rest, ((jsonLines w).after posts o).bytes = o.bytes ++ rest := by
  induction posts generalizing o with
  | nil => exact ⟨[], by simp [after]⟩
  | cons groups posts ih =>
    obtain ⟨rest, hrest⟩ := ih ((jsonLines w).post groups o).sink
    rw [(through_spec w groups o).2.1, List.append_assoc] at hrest
    exact ⟨_, hrest⟩

end Sink

/-- The last post of which anything got through got its whole line through. -/
def LastWhole (posts : List (List Group × List UInt8)) : Prop :=
  ∀ last ∈ (posts.filter (·.2 ≠ [])).getLast?, last.2 = jsonLine last.1

open Sink

theorem atLineStart_after (w : Writer ω) (posts : List (List Group)) (s : ω) :
    AtLineStart ((jsonLines w).after posts (.start s)).bytes ↔
      LastWhole (throughs w posts (.start s)) := by
  induction posts using List.reverseRecOn with
  | nil => simp [after, Output.start, AtLineStart, throughs, LastWhole]
  | append_singleton posts groups ih =>
    obtain ⟨hpart, hbytes, -⟩ := through_spec w groups ((jsonLines w).after posts (.start s))
    rw [after_concat, hbytes, (isLine_jsonLine groups).atLineStart_append_part hpart, ih,
      throughs_concat]
    -- a post of which nothing got through leaves the last one before it in charge
    by_cases hnone : through w groups ((jsonLines w).after posts (.start s)) = []
    · have hline : [] ≠ jsonLine groups := by
        obtain ⟨text, hline, -⟩ := isLine_jsonLine groups
        simp [hline]
      simp [LastWhole, hnone, hline]
    · simp [LastWhole, hnone]

/-- The line of a post that succeeds comes next in the output. It is cut off as a line of its own
exactly when the last earlier post of which anything got through got its whole line through. -/
theorem lines_of_ok_iff {before after : List (List Group)} {s : ω}
    (hok : ((jsonLines w).post groups ((jsonLines w).after before (.start s))).result = .ok ()) :
    let earlier := ((jsonLines w).after before (.start s)).bytes
    ∃ later, ((jsonLines w).after (before ++ groups :: after) (.start s)).bytes =
        earlier ++ jsonLine groups ++ later ∧
      (Feed.lines (earlier ++ jsonLine groups ++ later) =
          Feed.lines earlier ++ jsonLine groups :: Feed.lines later ↔
        LastWhole (throughs w before (.start s))) := by
  intro earlier
  obtain ⟨-, hbytes, hall⟩ := through_spec w groups ((jsonLines w).after before (.start s))
  obtain ⟨later, hlater⟩ := after_bytes w after
    ((jsonLines w).post groups ((jsonLines w).after before (.start s))).sink
  refine ⟨later, ?_, ?_⟩
  · rw [hbytes, hall hok] at hlater
    rw [after_append]
    exact hlater
  · rw [Feed.lines_append_line_iff (isLine_jsonLine groups), atLineStart_after]

/-- A writer that takes one byte, then fails once, then takes all it is offered. It counts the
calls. -/
def Writer.brieflyStuck : Writer Nat where
  write offered calls :=
    if calls = 1 then (.error (.ofKind .timedOut), calls + 1)
    else
      (.ok ⟨min offered.length (if calls = 0 then 1 else offered.length), Nat.min_le_left _ _⟩,
        calls + 1)
  flush calls := (.ok (), calls)

theorem lines_of_ok_afterTorn :
    let earlier := ((jsonLines .brieflyStuck).after [[]] (.start 0)).bytes
    ((jsonLines .brieflyStuck).post [] ((jsonLines .brieflyStuck).after [[]] (.start 0))).result =
        .ok () ∧
      ∃ later, ((jsonLines .brieflyStuck).after [[], [], []] (.start 0)).bytes =
          earlier ++ jsonLine [] ++ later ∧
        (Feed.lines (earlier ++ jsonLine [] ++ later) =
            Feed.lines earlier ++ jsonLine [] :: Feed.lines later ↔
          LastWhole (throughs .brieflyStuck [[]] (.start 0))) := by
  intro earlier
  have hok : ((jsonLines .brieflyStuck).post []
      ((jsonLines .brieflyStuck).after [[]] (.start 0))).result = .ok () := by cbv
  exact ⟨hok, lines_of_ok_iff hok⟩

/-- The second post succeeds, and there is no line of its own in the output. -/
theorem lines_of_brieflyStuck :
    (jsonLines .brieflyStuck).answers [[], []] (.start 0) =
        [.error (.io (.ofKind .timedOut)), .ok ()] ∧
      (Failure.io (.ofKind .timedOut)).isRecoverable = true ∧
      jsonLine [] ∉ Feed.lines ((jsonLines .brieflyStuck).after [[], []] (.start 0)).bytes := by
  have hbytes : ((jsonLines .brieflyStuck).after [[], []] (.start 0)).bytes = [91, 91, 93, 10] := by
    cbv
  have hline : jsonLine [] = [91, 93, 10] := by cbv
  refine ⟨by cbv, rfl, ?_⟩
  rw [hbytes, hline]
  decide

end Notifications
