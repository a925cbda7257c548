import Notifications.Proofs.PrintedLines
/-!
Runs whose reader is gone. The first batch that assembles to something cannot be posted, and that
ends the run: it is reported as failed, and no batch behind that one is taken.
-/
namespace Notifications

open Notice (Group)

variable {σ ω : Type} {limits : Limits} {sink : Sink σ} {w : Writer ω} {b : Batch}
  {before : List Batch}

/-- No post succeeds, and none of the failures can be passed over. -/
def Sink.Unavailable (sink : Sink σ) : Prop :=
  ∀ groups s, ∃ f, (sink.post groups s).result = .error f ∧ f.isRecoverable = false

/-- No line gets through: a write finds the reader gone, or the flush does. -/
def Writer.Deserted (w : Writer ω) : Prop :=
  ∀ line o, line ≠ [] → ∃ e o', Sink.writeLine w line o = (.error e, o') ∧ e.kind = .brokenPipe

theorem Writer.Deserted.unavailable (h : w.Deserted) : (Sink.jsonLines w).Unavailable := by
  intro groups o
  have hline : jsonLine groups ≠ [] := by
    obtain ⟨bytes, heq, -⟩ := isLine_jsonLine groups
    simp [heq]
  obtain ⟨e, o', hwrite, hkind⟩ := h (jsonLine groups) o hline
  refine ⟨.sinkUnavailable e.message, ?_, rfl⟩
  simp only [Sink.jsonLines, hwrite, Failure.ofWrite, hkind, if_true]

theorem Sink.Unavailable.recorded (h : sink.Unavailable) : sink.recorded.Unavailable :=
  fun groups s => h groups s.sink

namespace Pipeline

variable {p : Pipeline σ}

/-- Batches that assemble to nothing are taken and counted, and nothing else comes of them. -/
theorem drive_of_nothing (h : ∀ a ∈ before, assemble limits a = []) (sink : Sink σ)
    (rest : List Batch)
    (p : Pipeline σ) : ∃ log,
      let q : Pipeline σ :=
        ⟨{ p.stats with batchesReceived := p.stats.batchesReceived + before.length }, p.sink, log⟩
      drive limits sink (before ++ rest) p = drive limits sink rest q ∧
        taken limits sink (before ++ rest) p = before ++ taken limits sink rest q := by
  induction before generalizing p with
  | nil => exact ⟨p.log, rfl, rfl⟩
  | cons a before ih =>
    obtain ⟨_, hadvance⟩ := advance_of_nothing (h a List.mem_cons_self) sink p
    obtain ⟨log, hdrive, htaken⟩ := ih (fun c hc => h c (List.mem_cons_of_mem _ hc)) ⟨_, p.sink, _⟩
    refine ⟨log, ?_, ?_⟩
    · rw [List.cons_append, drive_of_none hadvance, hdrive, List.length_cons, Nat.add_right_comm,
        Nat.add_assoc]
    · rw [List.cons_append, taken_of_none hadvance, htaken, List.length_cons, Nat.add_right_comm,
        Nat.add_assoc]
      rfl

theorem advance_of_unavailable (h : sink.Unavailable) (hne : assemble limits b ≠ [])
    (p : Pipeline σ) :
    ∃ f log, f.isRecoverable = false ∧ p.advance limits sink b =
      (some f, ⟨{ p.stats with
          batchesReceived := p.stats.batchesReceived + 1
          sinkErrors := p.stats.sinkErrors + 1 },
        (sink.post (assemble limits b) p.sink).sink, log⟩) := by
  obtain ⟨f, hpost, hf⟩ := h (assemble limits b) p.sink
  have hsome : (assemble limits b).isEmpty = false := by simpa using hne
  obtain ⟨log, hprocess⟩ : ∃ log, p.process limits sink b = (.error f, ⟨{ p.stats with
        batchesReceived := p.stats.batchesReceived + 1
        sinkErrors := p.stats.sinkErrors + 1 },
      (sink.post (assemble limits b) p.sink).sink, log⟩) := by
    rw [process]
    simp only [hsome, hpost]
    exact ⟨_, rfl⟩
  refine ⟨f, log ++ [.plain .error .pipeline ("Notification pipeline stopping: " ++ f.message)],
    hf, ?_⟩
  rw [advance, hprocess]
  simp only [hf]
  rfl

/-- A run ends at the first batch that there is something to post of. -/
theorem run_of_unavailable (h : sink.Unavailable) (hbefore : ∀ a ∈ before, assemble limits a = [])
    (hne : assemble limits b ≠ []) (rest : List Batch) (s : σ) :
    ∃ f log, f.isRecoverable = false ∧ (start s).run limits sink (before ++ b :: rest) =
        (.error f, ⟨⟨before.length + 1, 0, 0, 0, 1⟩, (sink.post (assemble limits b) s).sink, log⟩) ∧
      taken limits sink (before ++ b :: rest) (start s).started = before ++ [b] := by
  obtain ⟨log, hdrive, htaken⟩ := drive_of_nothing hbefore sink (b :: rest) (start s).started
  obtain ⟨f, log', hf, hadvance⟩ := advance_of_unavailable h hne ⟨_, (start s).started.sink, log⟩
  refine ⟨f, log', hf, ?_, ?_⟩
  · rw [run, hdrive, drive_of_some hadvance]
    simp [start, started, logged, Stats.zero]
  · rw [htaken, taken_of_some hadvance]

theorem run_of_nothing (h : ∀ b ∈ before, assemble limits b = []) (sink : Sink σ) (s : σ) :
    ∃ log, (start s).run limits sink before = (.ok (), ⟨⟨before.length, 0, 0, 0, 0⟩, s, log⟩) := by
  obtain ⟨log, hdrive, -⟩ := drive_of_nothing h sink [] (start s).started
  rw [List.append_nil] at hdrive
  rw [run, hdrive]
  simp [drive, finished, start, started, logged, Stats.zero]

end Pipeline

theorem Channel.activity_of_result {c : Channel σ} {f : Failure} (h : c.result = .error f) :
    c.activity = .ended (.error f) := by
  rw [result] at h
  split at h
  · rename_i r hr
    rw [hr, h]
  · cases h

/-- The channel of a run that prints lines to a writer, once it has ended, with a record of its
posts. -/
def Daemon.printing (turns : List Turn) (w : Writer ω) (start : ω) (s : Settings)
    (batches : List Batch) :
    Option (Channel (Recorded (Output ω))) :=
  let sink := (Sink.jsonLines w).recorded
  (Channel.capacityFor? s.output.queueDepth.toNat).map fun capacity =>
    ((Channel.start capacity batches (.start ⟨.start start, []⟩)).takeTurns
      s.assembly sink turns).complete s.assembly sink

namespace Daemon

variable {m : Machine} {args : List String} {s : Settings} {input : List UInt8}

theorem deserted_standardOutput : (standardOutput false).Deserted := by
  intro line o hline
  refine ⟨⟨.brokenPipe, some FileError.brokenPipe.message⟩, o, ?_, rfl⟩
  rw [Sink.writeLine, Output.writeAll, if_neg hline]
  rfl

/-- What becomes of the batch at which the reader is found to be gone, whichever call finds it. -/
theorem printing_of_deserted (h : w.Deserted) (start : ω)
    (hqueue : s.output.queueDepth.toNat ≤ Channel.maxCapacity)
    (hbefore : ∀ a ∈ before, assemble s.assembly a = []) (hne : assemble s.assembly b ≠ [])
    (rest : List Batch) (turns : List Turn) :
    ∃ c, printing turns w start s (before ++ b :: rest) = some c ∧
      c.Stopped ∧ c.pipeline.sink.posts = [assemble s.assembly b] ∧
      c.arrived (before ++ b :: rest) = before ++ [b] ∧
      c.pipeline.stats = ⟨before.length + 1, 0, 0, 0, 1⟩ := by
  let sink := (Sink.jsonLines w).recorded
  cases hcapacity : Channel.capacityFor? s.output.queueDepth.toNat with
  | none => exact absurd ((Channel.capacityFor?_eq_none_iff _).1 hcapacity) (Nat.not_lt.2 hqueue)
  | some capacity =>
    have room : 0 < capacity := Channel.capacity_pos hcapacity
    obtain ⟨f, log, hf, hrun, htaken⟩ :=
      Pipeline.run_of_unavailable (h.unavailable.recorded) hbefore hne
      rest ⟨.start start, []⟩
    have hcomplete := Channel.complete_eq_run s.assembly sink (before ++ b :: rest)
      (.start ⟨.start start, []⟩) room turns
    obtain ⟨hresult, hpipeline⟩ := Prod.mk.inj (hcomplete.trans hrun)
    refine ⟨_, ?_, ⟨f, Channel.activity_of_result hresult, hf⟩, ?_, ?_, ?_⟩
    · rw [printing, hcapacity]
      rfl
    · rw [hpipeline]
      rfl
    · rw [Channel.arrived_complete s.assembly sink _ _ room turns]
      exact htaken
    · rw [hpipeline]

/-- When nobody reads the output, a run fails if there is anything to print, whoever is ahead: it
stops at the first batch that assembles to something, which is the only one posted. -/
theorem ending_of_lostReader (h : WorksOn m args s input) (hformat : s.output.format = .json)
    (hreader : m.hasReader = false) (turns : List Turn) :
    let batches := Feed.batches (Feed.ofBytes input)
    let outcome := runWith turns m args
    ((∀ b ∈ batches, assemble s.assembly b = []) →
      outcome.ending.code = 0 ∧ outcome.stats = some ⟨batches.length, 0, 0, 0, 0⟩) ∧
    ((∃ b ∈ batches, assemble s.assembly b ≠ []) → ∃ before b rest, batches = before ++ b :: rest ∧
      (∀ a ∈ before, assemble s.assembly a = []) ∧ assemble s.assembly b ≠ [] ∧
      outcome.ending.code = 1 ∧
      (∃ e, outcome.ending = .failed e ∧ e.chain.head? = some "Notification pipeline failed") ∧
      outcome.stats = some ⟨before.length + 1, 0, 0, 0, 1⟩ ∧
      ∀ (ω : Type) (w : Writer ω) (start : ω), w.Deserted →
      ∃ c, printing turns w start s batches = some c ∧
        c.Stopped ∧ c.pipeline.sink.posts = [assemble s.assembly b] ∧
        c.arrived batches = before ++ [b] ∧
        some c.pipeline.stats = outcome.stats) := by
  intro batches outcome
  have hsink : (Sink.jsonLines (standardOutput m.hasReader)).Unavailable :=
    hreader ▸ deserted_standardOutput.unavailable
  constructor
  · intro hnothing
    obtain ⟨_, hrun⟩ :=
      Pipeline.run_of_nothing hnothing (Sink.jsonLines (standardOutput m.hasReader)) (.start ())
    obtain ⟨log, files, houtcome⟩ := runWith_of_run h hformat hrun turns
    rw [show outcome = _ from houtcome]
    exact ⟨rfl, rfl⟩
  · rintro ⟨a, ha, hne⟩
    have hfind : (batches.find? (assemble s.assembly · ≠ [])).isSome :=
      List.find?_isSome.2 ⟨a, ha, decide_eq_true hne⟩
    obtain ⟨b, hb⟩ := Option.isSome_iff_exists.1 hfind
    obtain ⟨hb, before, rest, hbatches, hbefore⟩ := List.find?_eq_some_iff_append.1 hb
    have hnothing : ∀ a ∈ before, assemble s.assembly a = [] := by simpa using hbefore
    have hsome : assemble s.assembly b ≠ [] := by simpa using hb
    obtain ⟨f, _, -, hrun, -⟩ := Pipeline.run_of_unavailable hsink hnothing hsome rest (.start ())
    rw [← hbatches] at hrun
    obtain ⟨log, files, houtcome⟩ := runWith_of_run h hformat hrun turns
    have hstats : outcome.stats = some ⟨before.length + 1, 0, 0, 0, 1⟩ :=
      congrArg Outcome.stats houtcome
    have hending : outcome.ending = .failed (.pipeline f) := congrArg Outcome.ending houtcome
    refine ⟨before, b, rest, hbatches, hnothing, hsome, ?_, ⟨.pipeline f, hending, rfl⟩, hstats, ?_⟩
    · rw [hending]
      rfl
    · intro ω w start hw
      obtain ⟨c, hc, hstopped, hposts, harrived, hcounters⟩ :=
        printing_of_deserted hw start h.queue hnothing hsome rest turns
      rw [← hbatches] at hc harrived
      exact ⟨c, hc, hstopped, hposts, harrived, by rw [hcounters, hstats]⟩

/-- A writer that takes everything and finds out when it is flushed that nobody reads. -/
def buffering : Writer Unit where
  write := (standardOutput true).write
  flush s := (.error (.ofKind .brokenPipe), s)

theorem deserted_buffering : buffering.Deserted := by
  intro line o hline
  have hall : o.writeAll buffering line = (.ok (), ⟨(), o.bytes ++ line⟩) := by
    obtain ⟨b, line, rfl⟩ := List.exists_cons_of_ne_nil hline
    rw [Output.writeAll, if_neg hline]
    simp [buffering, standardOutput, Output.writeAll]
  exact ⟨.ofKind .brokenPipe, ⟨(), o.bytes ++ line⟩, by rw [Sink.writeLine, hall]; rfl, rfl⟩

/-- Whether the output is read has no part in what the daemon works on. -/
theorem WorksOn.withReader (h : WorksOn m args s input) (hasReader : Bool) :
    WorksOn { m with hasReader := hasReader } args s input := by
  obtain ⟨⟨c, files, hserves, hopen⟩, hqueue⟩ := h
  refine ⟨⟨c, files, ⟨hserves.args, hserves.command, hserves.level, ?_, ?_⟩, ?_⟩, hqueue⟩
  · exact hserves.settings
  · exact hserves.files
  · exact hopen

/-- A machine whose output nobody reads. -/
def unreadMachine : Machine := { tightMachine with hasReader := false }

theorem worksOn_unreadMachine :
    WorksOn unreadMachine ["-c", "daemon.toml"] (withQueue 1) knockInput :=
  worksOn_tightMachine.withReader false

theorem ending_of_knock :
    let outcome := runWith Channel.hurried unreadMachine ["-c", "daemon.toml"]
    WorksOn unreadMachine ["-c", "daemon.toml"] (withQueue 1) knockInput ∧
      (withQueue 1).output.format = .json ∧ unreadMachine.hasReader = false ∧
      outcome.ending.code = 1 ∧ outcome.stats = some ⟨2, 0, 0, 0, 1⟩ ∧
      buffering.Deserted ∧
      ∃ c, printing Channel.hurried buffering () (withQueue 1) [[], Channel.knock] = some c ∧
        c.pipeline.sink.posts = [[knockGroup]] ∧ some c.pipeline.stats = outcome.stats := by
  intro outcome
  have hnone : assemble (withQueue 1).assembly [] = [] := by
    rw [assemble_eq_plain]
    cbv
  have hknock : assemble (withQueue 1).assembly Channel.knock = [knockGroup] := by
    rw [assemble_eq_plain]
    cbv
  obtain ⟨-, hfailed⟩ := ending_of_lostReader worksOn_unreadMachine rfl rfl Channel.hurried
  rw [batches_knockInput] at hfailed
  obtain ⟨before, b, rest, hbatches, hnothing, hsome, hcode, -, hstats, hposts⟩ :=
    hfailed ⟨Channel.knock, by simp, by simp [hknock]⟩
  obtain ⟨rfl, rfl⟩ : before = [[]] ∧ b = Channel.knock := by
    rcases before with _ | ⟨a, _ | ⟨a', before⟩⟩
    · obtain ⟨rfl, -⟩ := List.cons.inj hbatches
      exact absurd hnone hsome
    · simp only [List.cons_append, List.nil_append, List.cons.injEq] at hbatches
      obtain ⟨rfl, rfl, -⟩ := hbatches
      exact ⟨rfl, rfl⟩
    · simp at hbatches
  obtain ⟨c, hc, -, hpost, -, hcounters⟩ := hposts Unit buffering () deserted_buffering
  exact ⟨worksOn_unreadMachine, rfl, rfl, hcode, hstats, deserted_buffering, c, hc, hknock ▸ hpost,
    hcounters⟩

end Daemon

end Notifications
