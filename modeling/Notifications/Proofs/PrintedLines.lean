import Notifications.Proofs.NoticeLines
import Notifications.Proofs.ReliableRuns
import Notifications.Proofs.Serving
import Notifications.Proofs.Sessions
/-!
What the daemon prints. With settings that ask for lines of JSON and with an output that is read,
there is a line for each batch of the input that assembles to something, in order, however reading
and posting take turns.
-/
namespace Notifications.Daemon

open Notice (Group)

variable {m : Machine} {args : List String} {s : Settings} {input : List UInt8}

theorem reliable_standardOutput : (standardOutput true).Reliable where
  takes offered u h := ⟨_, u, rfl, by simpa using h⟩
  flushes u := ⟨u, rfl⟩

/-- A run that prints lines comes to what its pipeline does, however reading and posting take
turns. -/
theorem runWith_of_run (h : WorksOn m args s input) (hformat : s.output.format = .json)
    {r : Except Failure Unit} {q : Pipeline (Output Unit)}
    (hrun : (Pipeline.start (Output.start ())).run
      s.assembly (Sink.jsonLines (standardOutput m.hasReader)) (Feed.batches (Feed.ofBytes input)) =
        (r, q))
    (turns : List Turn) : ∃ log files, runWith turns m args =
      ⟨endingOf r, q.sink.bytes, log, files, some q.stats⟩ := by
  obtain ⟨c, directive, first, capacity, files, -, -, -, room, hrunWith⟩ := h.exists_session turns
  obtain ⟨_, hsession⟩ := session_of_run room hrun turns (·.bytes)
  refine ⟨(runWith turns m args).log, files, ?_⟩
  rw [hrunWith]
  simp only [sessionFor, hformat, hsession]

/-- The output and the counters of a run that prints lines. -/
theorem runWith_of_json (h : WorksOn m args s input) (hformat : s.output.format = .json)
    (hreader : m.hasReader = true) (turns : List Turn) :
    let batches := Feed.batches (Feed.ofBytes input)
    let posts := postsOf s.assembly batches
    ∃ log files, runWith turns m args =
      ⟨.done, (posts.map jsonLine).flatten, log, files, some (Stats.zero.after batches posts)⟩ := by
  intro batches posts
  obtain ⟨_, hrun⟩ := Pipeline.run_of_neverFails reliable_standardOutput.neverFails s.assembly
    batches (.start ())
  obtain ⟨-, hbytes⟩ := reliable_standardOutput.after_posts posts (.start ())
  rw [← hreader] at hrun
  obtain ⟨log, files, houtcome⟩ := runWith_of_run h hformat hrun turns
  refine ⟨log, files, ?_⟩
  rw [houtcome, hreader, hbytes]
  rfl

/-- A schedule, a queue, a style or other files make no difference to the output. -/
theorem output_of_json (h : WorksOn m args s input) (hformat : s.output.format = .json)
    (hreader : m.hasReader = true) (turns : List Turn) :
    let batches := Feed.batches (Feed.ofBytes input)
    let posts := postsOf s.assembly batches
    let outcome := runWith turns m args
    let lines := Feed.lines outcome.output
    outcome.ending.code = 0 ∧ List.Forall₂ ReadsAs posts lines ∧
      outcome.stats =
        some ⟨batches.length, lines.length, posts.flatten.length, messageCount posts.flatten, 0⟩ ∧
      ∀ turns' m' args' s', WorksOn m' args' s' input → s'.output.format = .json →
        m'.hasReader = true → s'.assembly = s.assembly →
        (runWith turns' m' args').output = outcome.output := by
  intro batches posts outcome lines
  obtain ⟨log, files, hrun⟩ := runWith_of_json h hformat hreader turns
  have houtput : outcome.output = (posts.map jsonLine).flatten := congrArg Outcome.output hrun
  have hlines : lines = posts.map jsonLine := by
    rw [show lines = Feed.lines (posts.map jsonLine).flatten from congrArg Feed.lines houtput]
    exact Feed.lines_flatten (List.forall_mem_map.2 fun groups _ => isLine_jsonLine groups)
  refine ⟨?_, ?_, ?_, ?_⟩
  · rw [show outcome.ending = .done from congrArg Outcome.ending hrun]
    rfl
  · rw [hlines, List.forall₂_map_right_iff, List.forall₂_same]
    exact fun groups _ => readsAs_jsonLine groups
  · rw [show outcome.stats = _ from congrArg Outcome.stats hrun, hlines, List.length_map]
    simp [Stats.after, Stats.zero, posts, batches]
  · intro turns' m' args' s' h' hformat' hreader' hassembly
    obtain ⟨log', files', hrun'⟩ := runWith_of_json h' hformat' hreader' turns'
    rw [hrun', houtput, hassembly]

/-- A batch without records, a line that is no batch, and a knock. -/
def knockInput : List UInt8 :=
  Text.encodeUtf8
    ("[]\n?\n[\x7b\"id\":\x7b\"value\":\"c\"\x7d,\"conversation_name\":\"n\",\"messages\":" ++
    "[\x7b\"kind\":\"knock\",\"author\":\x7b\"name\":\"A\"\x7d,\"time\":21\x7d]\x7d]").toList

theorem batches_knockInput : Feed.batches (Feed.ofBytes knockInput) = [[], Channel.knock] := by
  decide +kernel

def knockGroup : Group := ⟨"c", "n", none, [⟨⟨"A", none⟩, 21, .knock⟩], false, 21⟩

theorem postsOf_knock : postsOf .default [[], Channel.knock] = [[knockGroup]] := by
  have hnone : assemble .default [] = [] := by
    rw [assemble_eq_plain]
    cbv
  have hknock : assemble .default Channel.knock = [knockGroup] := by
    rw [assemble_eq_plain]
    cbv
  simp [postsOf, hnone, hknock]

/-- One batch may wait. -/
def tightMachine : Machine := machineWith "[output]\nqueue_depth = 1\n" knockInput

theorem worksOn_tightMachine :
    WorksOn tightMachine ["-c", "daemon.toml"] (withQueue 1) knockInput := by
  have hload : loadText "[output]\nqueue_depth = 1\n" = .ok (withQueue 1) := by rfl
  exact worksOn_machineWith hload (by decide) knockInput

theorem output_of_knock :
    let outcome := runWith Channel.hurried tightMachine ["-c", "daemon.toml"]
    WorksOn tightMachine ["-c", "daemon.toml"] (withQueue 1) knockInput ∧
      (withQueue 1).output.format = .json ∧ tightMachine.hasReader = true ∧
      outcome.ending.code = 0 ∧
      List.Forall₂ ReadsAs [[knockGroup]] (Feed.lines outcome.output) ∧
      outcome.stats = some ⟨2, 1, 1, 1, 0⟩ := by
  intro outcome
  obtain ⟨hcode, hlines, hstats, -⟩ := output_of_json worksOn_tightMachine rfl rfl Channel.hurried
  rw [batches_knockInput, show (withQueue 1).assembly = .default from rfl,
    postsOf_knock] at hlines hstats
  rw [← hlines.length_eq] at hstats
  exact ⟨worksOn_tightMachine, rfl, rfl, hcode, hlines, hstats⟩

end Notifications.Daemon
