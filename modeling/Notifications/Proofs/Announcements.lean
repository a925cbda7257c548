import Notifications.Proofs.GroupMessages
import Notifications.Proofs.PrintedLines
/-!
The two forms of output beside each other. The same input, settled the same but for the form, is
printed as lines by one run and announced in the log by the other: the announcements are those of
the groups in the lines, in order.
-/
namespace Notifications

open Notice (Group Message)
open Render (Style)

variable {limits : Limits} {b : Batch} {g : Group}

/-- What is said of a group: the text of its newest message, cut as the style has it, and the sender
before it where there may be several. -/
inductive Render.Says (style : Style) (g : Group) : String → Prop
  | nothing (h : g.messages = []) : Says style g ""
  | alone {m} (h : Notice.IsNewest m g.messages) (direct : g.oneToOne = true) :
      Says style g (truncate style.maxLength.toNat (fullText ⟨style.templates⟩ m.content))
  | bySender {m} (h : Notice.IsNewest m g.messages) (shared : g.oneToOne = false) :
      Says style g
        (m.author.name ++ ": " ++
          truncate style.maxLength.toNat (fullText ⟨style.templates⟩ m.content))

/-- An event is about a group and says what there is to say of it. -/
structure Announces (style : Style) (g : Group) (e : Event) : Prop where
  group : e.group = some g.id
  time : e.time = some g.lastTime
  message : ∃ said, Render.Says style g said ∧ e.message = g.name ++ ": " ++ said

theorem oldestFirst_messages (hg : g ∈ assemble limits b) : Notice.OldestFirst g.messages := by
  rw [messages_eq_newest hg]
  exact (Notice.chronology_byTime _).oldestFirst.sublist (Notice.newest_suffix _ _).sublist

theorem Render.says_summary (style : Style) (h : Notice.OldestFirst g.messages) :
    Says style g ((style.render g).summary.getD "") := by
  rw [Shown.summary, Style.render, List.getLast?_map]
  cases hlast : g.messages.getLast? with
  | none => exact .nothing (List.getLast?_eq_none_iff.1 hlast)
  | some m =>
    cases hform : g.oneToOne with
    | true => exact .alone (h.isNewest hlast) hform
    | false => exact .bySender (h.isNewest hlast) hform

theorem announces_groupEvent (style : Style) (hg : g ∈ assemble limits b) :
    Announces style g (Sink.groupEvent (style.render g)) :=
  ⟨rfl, rfl, _, Render.says_summary style (oldestFirst_messages hg), rfl⟩

/-- The events of level info that a sink logs. -/
def announcements (log : List Event) : List Event :=
  log.filter fun e => e.level = .info ∧ e.origin = .sink

theorem announcements_append (a b : List Event) :
    announcements (a ++ b) = announcements a ++ announcements b := List.filter_append a b

theorem announcements_eq_nil {log : List Event} (h : ∀ e ∈ log, e.origin ≠ .sink) :
    announcements log = [] := by
  rw [announcements, List.filter_eq_nil_iff]
  intro e he
  simp [h e he]

/-- Of what the sink logs about a group the lines of its messages have more detail. -/
theorem announcements_shownEvents (n : Render.Shown) :
    announcements (Sink.shownEvents n) = [Sink.groupEvent n] := by
  have hlines : announcements (n.lines.map (Sink.lineEvent n)) = [] := by
    simp [announcements, Sink.lineEvent]
  rw [Sink.shownEvents, ← List.singleton_append, announcements_append, hlines]
  rfl

theorem announcements_post (style : Style) (groups : List Group) (u : Unit) :
    announcements ((Sink.rendered style).post groups u).events =
      groups.map fun g => Sink.groupEvent (style.render g) := by
  induction groups with
  | nil => rfl
  | cons g groups ih =>
    rw [List.map_cons, ← ih]
    show announcements (Sink.shownEvents (style.render g) ++ _) = _
    rw [announcements_append, announcements_shownEvents]
    rfl

theorem Sink.neverFails_rendered (style : Style) : (Sink.rendered style).NeverFails :=
  fun _ _ => rfl

theorem origin_of_mem_assemblyEvents (b : Batch) (groups : List Group) :
    ∀ e ∈ assemblyEvents b groups, e.origin ≠ .sink := by
  intro e he
  rcases List.mem_append.1 he with he | he
  · obtain ⟨id, -, rfl⟩ := List.mem_map.1 he
    simp [Event.plain]
  · rw [List.mem_singleton.1 he]
    simp [Event.plain]

namespace Pipeline

variable {style : Style}

/-- A batch adds the announcements of its groups. -/
theorem announcements_advance (limits : Limits) (style : Style) (b : Batch) (p : Pipeline Unit) :
    announcements (p.advance limits (.rendered style) b).2.log = announcements p.log ++
      (assemble limits b).map fun g => Sink.groupEvent (style.render g) := by
  have hassembly := announcements_eq_nil (origin_of_mem_assemblyEvents b (assemble limits b))
  have hplain : ∀ level message, announcements [.plain level .pipeline message] = [] := by
    simp [announcements, Event.plain]
  by_cases hempty : assemble limits b = []
  · rw [hempty] at hassembly
    rw [advance, process, hempty]
    simp [announcements_append, hassembly, hplain]
  · have hsome : (assemble limits b).isEmpty = false := by simpa using hempty
    rw [advance, process]
    simp only [hsome, Sink.neverFails_rendered style (assemble limits b) p.sink]
    simp [announcements_append, hassembly, hplain, announcements_post]

theorem announcements_drive (limits : Limits) (style : Style) (batches : List Batch)
    (p : Pipeline Unit) :
    announcements (drive limits (.rendered style) batches p).2.log = announcements p.log ++
      (postsOf limits batches).flatten.map fun g => Sink.groupEvent (style.render g) := by
  induction batches generalizing p with
  | nil => simp [drive, finished, logged, announcements, postsOf, Event.plain]
  | cons b batches ih =>
    obtain ⟨log, hadvance⟩ := advance_of_neverFails (Sink.neverFails_rendered style) limits b p
    have hlog := announcements_advance limits style b p
    rw [hadvance] at hlog
    have hposts : (postsOf limits (b :: batches)).flatten =
        assemble limits b ++ (postsOf limits batches).flatten := by
      by_cases hempty : assemble limits b = [] <;> simp [postsOf, hempty]
    rw [drive_of_none hadvance, ih, hlog, hposts, List.map_append, List.append_assoc]

end Pipeline

/-- The filter for a level of the log. -/
def LogFilter.forLevel (l : Level) : LogFilter :=
  ⟨[⟨none, [], Level.warn.rank⟩, ⟨some "notification_daemon", [], l.rank⟩,
    ⟨some "notification_assembler", [], l.rank⟩]⟩

theorem CommandLine.logDirective_of_level {c : CommandLine} {l : Level}
    (h : Level.ofText? c.logLevel = some l) :
    ∃ directive, c.logDirective = .ok directive ∧
      LogFilter.ofText? directive = some (.forLevel l) := by
  refine ⟨_, by rw [logDirective, h], ?_⟩
  cases l <;> decide +kernel

/-- The part of the program that an event comes from, as a filter names it. -/
def Origin.crate : Origin → String
  | .batch | .pipeline => "notification_assembler"
  | .daemon | .settings | .logging | .input | .sink => "notification_daemon"

/-- Every event comes from a part that the filter for a level names, so that level decides. -/
theorem LogFilter.passes_forLevel (l : Level) (e : Event) :
    (forLevel l).passes e = decide (e.level.rank ≤ l.rank) := by
  have hcovering : (forLevel l).directives.filter (·.covers e) =
      [⟨none, [], Level.warn.rank⟩, ⟨some e.origin.crate, [], l.rank⟩] := by
    obtain ⟨level, origin, message, group, time⟩ := e
    cases origin <;> simp [forLevel, Directive.covers, Origin.target, Origin.crate]
  rw [passes, decisive, hcovering]
  simp [Directive.moreSpecific]

/-- A filter that lets events of level info pass takes no announcement away. -/
theorem announcements_filter {l : Level} (h : Level.info.rank ≤ l.rank) (log : List Event) :
    announcements (log.filter (LogFilter.forLevel l).passes) = announcements log := by
  rw [announcements, List.filter_filter, announcements]
  apply List.filter_congr
  intro e _
  rw [LogFilter.passes_forLevel]
  by_cases hlevel : e.level = .info <;> simp [hlevel, h]

/-- The same settings with another form of output. -/
def Settings.withFormat (s : Settings) (format : OutputFormat) : Settings :=
  { s with output := { s.output with format := format } }

namespace Daemon

variable {m m' : Machine} {args args' : List String} {s : Settings} {input : List UInt8}

/-- The level of the log that the arguments ask for shows at least events of level info. -/
def LogsInfo (args : List String) : Prop :=
  ∃ c l, CommandLine.ofArgs args = .ok c ∧ Level.ofText? c.logLevel = some l ∧
    Level.info.rank ≤ l.rank

theorem origin_of_mem_readingEvents {σ : Type} (feed : List Feed) (c : Channel σ) :
    ∀ e ∈ readingEvents feed c, e.origin ≠ .sink := by
  have hfeed : ∀ feed, ∀ e ∈ Feed.events feed, e.origin ≠ .sink := by
    intro feed e he
    obtain ⟨text, -, rfl⟩ := List.mem_map.1 he
    simp [Event.plain]
  intro e he
  rw [readingEvents] at he
  split at he
  · exact hfeed feed e he
  · rcases List.mem_append.1 he with he | he
    · exact hfeed _ e he
    · rw [List.mem_singleton.1 he]
      simp [Event.plain]

/-- A run that announces its groups takes and counts all that there is, and adds no other
announcements. -/
theorem runWith_of_rendered (h : WorksOn m args s input) (hformat : s.output.format = .rendered)
    (hfilter : m.logFilter = none) (hlevel : LogsInfo args) (turns : List Turn) :
    let batches := Feed.batches (Feed.ofBytes input)
    let posts := postsOf s.assembly batches
    let outcome := runWith turns m args
    outcome.ending = .done ∧ outcome.stats = some (Stats.zero.after batches posts) ∧
      announcements outcome.log = posts.flatten.map fun g =>
        Sink.groupEvent (s.render.render g) := by
  intro batches posts outcome
  obtain ⟨c, directive, first, capacity, files, hargs, hdirective, hfirst, room, heq⟩ :=
    h.exists_session turns
  obtain ⟨c', l, hargs', hl, hinfo⟩ := hlevel
  obtain rfl : c' = c := Except.ok.inj (hargs'.symm.trans hargs)
  obtain ⟨directive', hdirective', hforLevel⟩ := CommandLine.logDirective_of_level hl
  obtain rfl : directive' = directive := Except.ok.inj (hdirective'.symm.trans hdirective)
  have hfilterFor : filterFor m directive' = .forLevel l := by
    rw [filterFor, hfilter, hforLevel]
    rfl
  obtain ⟨log, hrun⟩ :=
    Pipeline.run_of_neverFails (Sink.neverFails_rendered s.render) s.assembly batches ()
  have hlog : announcements log = posts.flatten.map fun g =>
      Sink.groupEvent (s.render.render g) := by
    have hdrive :=
      Pipeline.announcements_drive s.assembly s.render batches (Pipeline.start ()).started
    rw [← Pipeline.run, hrun] at hdrive
    exact hdrive
  obtain ⟨d, hsession⟩ := session_of_run room hrun turns fun _ => []
  have houtcome : outcome = _ := heq
  simp only [sessionFor, hformat, hsession] at houtcome
  refine ⟨congrArg Outcome.ending houtcome, congrArg Outcome.stats houtcome, ?_⟩
  have hdone : announcements [doneEvent (Stats.zero.after batches posts)] = [] := by
    simp [announcements, doneEvent, Event.plain]
  rw [houtcome, hfilterFor, announcements_filter hinfo, announcements_append, announcements_append,
    announcements_append, announcements_eq_nil hfirst,
    announcements_eq_nil (origin_of_mem_readingEvents _ d), hdone, hlog]
  simp

/-- A run that prints lines and one that announces, on the same input and with settings that differ
in nothing else, end well with the same counters, and the groups of the lines are announced one by
one. -/
theorem announcements_of_lines (h : WorksOn m args (s.withFormat .json) input)
    (h' : WorksOn m' args' (s.withFormat .rendered) input) (hreader : m.hasReader = true)
    (hfilter : m'.logFilter = none) (hlevel : LogsInfo args') (turns turns' : List Turn) :
    let printed := runWith turns m args
    let announced := runWith turns' m' args'
    printed.ending.code = 0 ∧ announced.ending.code = 0 ∧
      (∃ stats, printed.stats = some stats ∧ announced.stats = some stats) ∧
      ∃ posts, List.Forall₂ ReadsAs posts (Feed.lines printed.output) ∧
        List.Forall₂ (Announces s.render) posts.flatten (announcements announced.log) := by
  intro printed announced
  obtain ⟨hcode, hlines, -, -⟩ := output_of_json h rfl hreader turns
  obtain ⟨_, _, hprinted⟩ := runWith_of_json h rfl hreader turns
  obtain ⟨hending, hstats, hannounced⟩ := runWith_of_rendered h' rfl hfilter hlevel turns'
  refine ⟨hcode, ?_, ⟨_, congrArg Outcome.stats hprinted, hstats⟩, _, hlines, ?_⟩
  · rw [show announced.ending = .done from hending]
    rfl
  · rw [show announcements announced.log = _ from hannounced, List.forall₂_map_right_iff]
    apply List.forall₂_same.2
    intro g hg
    obtain ⟨groups, hgroups, hg⟩ := List.mem_flatten.1 hg
    obtain ⟨-, b, -, rfl⟩ := mem_postsOf.1 hgroups
    exact announces_groupEvent s.render hg

/-- A machine that announces what the one with the same queue prints. -/
def announcingMachine : Machine :=
  machineWith "[output]\nformat = \"rendered\"\nqueue_depth = 1\n" knockInput

theorem worksOn_announcingMachine :
    WorksOn announcingMachine ["-c", "daemon.toml"] ((withQueue 1).withFormat .rendered)
      knockInput := by
  have hload : loadText "[output]\nformat = \"rendered\"\nqueue_depth = 1\n" =
      .ok ((withQueue 1).withFormat .rendered) := by decide +kernel
  exact worksOn_machineWith hload (by decide) knockInput

theorem logsInfo_withSettings : LogsInfo ["-c", "daemon.toml"] :=
  ⟨withSettings, .info, rfl, by decide +kernel, Nat.le_refl _⟩

theorem announcements_of_knock :
    let printed := runWith Channel.hurried tightMachine ["-c", "daemon.toml"]
    let announced := runWith [] announcingMachine ["-c", "daemon.toml"]
    WorksOn tightMachine ["-c", "daemon.toml"] ((withQueue 1).withFormat .json) knockInput ∧
      WorksOn announcingMachine ["-c", "daemon.toml"] ((withQueue 1).withFormat .rendered)
        knockInput ∧
      tightMachine.hasReader = true ∧ announcingMachine.logFilter = none ∧
      LogsInfo ["-c", "daemon.toml"] ∧
      printed.ending.code = 0 ∧ announced.ending.code = 0 ∧
      (∃ stats, printed.stats = some stats ∧ announced.stats = some stats) ∧
      ∃ posts, List.Forall₂ ReadsAs posts (Feed.lines printed.output) ∧
        List.Forall₂ (Announces .default) posts.flatten (announcements announced.log) :=
  ⟨worksOn_tightMachine, worksOn_announcingMachine, rfl, rfl, logsInfo_withSettings,
    announcements_of_lines worksOn_tightMachine worksOn_announcingMachine rfl rfl
      logsInfo_withSettings
      Channel.hurried []⟩

end Daemon

end Notifications
