import Notifications.Daemon.Run
import Notifications.Proofs.Schedules
/-!
Runs of the daemon that get past their arguments and settings. From there on how they end, what they
print and what they count is up to the pipeline.
-/
namespace Notifications

theorem Settings.origin_of_mem_events (path : FilePath) (f : Files) :
    ∀ e ∈ (Settings.load path f).events, e.origin = .settings := by
  rw [Settings.load]
  split
  · simp
  · split <;> simp [Event.plain]

namespace Daemon

variable {m : Machine} {args : List String} {c : CommandLine} {s : Settings} {files : Files}
  {input : List UInt8}

/-- Where the daemon looks for its settings. -/
def settingsPath (m : Machine) (c : CommandLine) : FilePath :=
  .ofString m.directory (c.configPath m.home m.configHome)

/-- The arguments, the level of the log and the settings are accepted. -/
structure Serves (m : Machine) (args : List String) (c : CommandLine) (s : Settings)
    (files : Files) : Prop where
  args : CommandLine.ofArgs args = .ok c
  command : c.command = none
  level : ∃ directive, c.logDirective = .ok directive
  settings : (Settings.load (settingsPath m c) m.files).result = .ok s
  files : (Settings.load (settingsPath m c) m.files).files = files

/-- Only the log is added to, and filtered. Before the input is read nothing is said about
notices. -/
theorem Serves.exists_log (h : Serves m args c s files) (turns : List Turn) :
    ∃ directive first, c.logDirective = .ok directive ∧ (∀ e ∈ first, e.origin ≠ .sink) ∧
      runWith turns m args = { post turns m c s files with
        log := (first ++ (post turns m c s files).log).filter (filterFor m directive).passes } := by
  obtain ⟨directive, hlevel⟩ := h.level
  have hsettings := h.settings
  have hfiles := h.files
  have hevents := Settings.origin_of_mem_events (settingsPath m c) m.files
  rw [settingsPath] at hsettings hfiles hevents
  refine ⟨directive, startEvents c directive ++
    (Settings.load (.ofString m.directory (c.configPath m.home m.configHome)) m.files).events,
    hlevel, ?_, ?_⟩
  · intro e he
    rcases List.mem_append.1 he with he | he
    · simp only [startEvents, List.mem_cons, List.not_mem_nil, or_false] at he
      rcases he with rfl | rfl <;> simp [Event.plain]
    · simp [hevents e he]
  · rw [runWith, h.args]
    simp only [h.command, serve, hlevel, hsettings, hfiles]

theorem Serves.runWith_eq (h : Serves m args c s files) (turns : List Turn) :
    ∃ log, runWith turns m args = { post turns m c s files with log := log } := by
  obtain ⟨directive, first, -, -, heq⟩ := h.exists_log turns
  exact ⟨_, heq⟩

theorem Serves.unique {c c' : CommandLine} {s s' : Settings} {files files' : Files}
    (h : Serves m args c s files) (h' : Serves m args c' s' files') : c' = c ∧ s' = s := by
  have hc : c' = c := Except.ok.inj (h'.args.symm.trans h.args)
  subst hc
  exact ⟨rfl, Except.ok.inj (h'.settings.symm.trans h.settings)⟩

theorem openInput_standard (m : Machine) (files : Files) :
    openInput m files "-" = .ok (Feed.ofBytes m.input) :=
  if_pos rfl

/-- What the daemon is started with is accepted, its queue can be made, and it reads the input. -/
structure WorksOn (m : Machine) (args : List String) (s : Settings) (input : List UInt8) :
    Prop where
  serves : ∃ c files, Serves m args c s files ∧ openInput m files c.input = .ok (Feed.ofBytes input)
  queue : s.output.queueDepth.toNat ≤ 2305843009213693951

/-- How a run ends whose pipeline has been run. -/
def endingOf : Except Failure Unit → Ending
  | .ok () => .done
  | .error f => .failed (.pipeline f)

/-- From its input on, a run that gets there is the session of its pipeline. -/
theorem WorksOn.exists_session (h : WorksOn m args s input) (turns : List Turn) :
    ∃ c directive first capacity files,
      CommandLine.ofArgs args = .ok c ∧ c.logDirective = .ok directive ∧
      (∀ e ∈ first, e.origin ≠ .sink) ∧ 0 < capacity ∧
      let session := sessionFor turns capacity s m.hasReader (Feed.ofBytes input)
      runWith turns m args = ⟨endingOf session.result, session.output,
        (first ++ session.events).filter (filterFor m directive).passes, files,
        some session.stats⟩ := by
  obtain ⟨c, files, hserves, hopen⟩ := h.serves
  obtain ⟨directive, first, hdirective, hfirst, heq⟩ := hserves.exists_log turns
  cases hcapacity : Channel.capacityFor? s.output.queueDepth.toNat with
  | none =>
    have hlarge := (Channel.capacityFor?_eq_none_iff _).1 hcapacity
    exact absurd hlarge (Nat.not_lt.2 h.queue)
  | some capacity =>
    refine ⟨c, directive, first ++ settingsEvents s, capacity, files, hserves.args, hdirective, ?_,
      Channel.capacity_pos hcapacity, ?_⟩
    · intro e he
      rcases List.mem_append.1 he with he | he
      · exact hfirst e he
      · simp only [settingsEvents, List.mem_cons, List.not_mem_nil, or_false] at he
        rcases he with rfl | rfl <;> simp [Event.plain]
    · rw [heq, post, hcapacity]
      simp only [hopen, List.append_assoc]
      rfl

/-- A run that does not get that far has something to say, as long as someone reads it. -/
theorem ending_ne_broken (hreader : m.hasReader = true) (h : ¬ ∃ c s files, Serves m args c s files)
    (turns : List Turn) : (runWith turns m args).ending ≠ .broken := by
  rw [runWith]
  cases hargs : CommandLine.ofArgs args with
  | error r => simp [refuse]
  | ok c =>
    cases hcommand : c.command with
    | some command =>
      cases command with
      | version => simp [hcommand, printed, hreader]
      | dumpConfig =>
        simp only [hcommand, dumpConfig]
        split
        · simp [endsWith]
        · split
          · simp [endsWith]
          · simp [printed, hreader]
    | none =>
      simp only [hcommand, serve]
      cases hlevel : c.logDirective with
      | error chain => simp [endsWith]
      | ok directive =>
        cases hsettings : (Settings.load (settingsPath m c) m.files).result with
        | error e =>
          rw [settingsPath] at hsettings
          simp [hsettings, endsWith]
        | ok s => exact absurd ⟨c, s, _, hargs, hcommand, ⟨directive, hlevel⟩, hsettings, rfl⟩ h

/-- A machine with settings in the file `daemon.toml` and with some input. -/
def machineWith (settings : String) (input : List UInt8) : Machine where
  files := .ofEntries [(["daemon.toml"], .file (Text.encodeUtf8 settings.toList))]
  directory := []
  home := "/"
  configHome := none
  logFilter := none
  input := input
  hasReader := true

/-- The command line that names these settings. -/
def withSettings : CommandLine := ⟨some "daemon.toml", "-", "info", false, true, none⟩

/-- Settings in which only the queue differs from the defaults. -/
def withQueue (depth : UInt64) : Settings := { Settings.default with output := ⟨.json, depth⟩ }

/-- What a machine with these settings makes of them. -/
def loadText (settings : String) : Except SettingsError Settings :=
  (Settings.load (settingsPath (machineWith settings []) withSettings)
    (machineWith settings []).files).result

/-- The input has no part in it. -/
theorem serves_machineWith {settings : String} (h : loadText settings = .ok s)
    (input : List UInt8) :
    ∃ files, Serves (machineWith settings input) ["-c", "daemon.toml"] withSettings s files :=
  ⟨_, rfl, rfl, ⟨_, rfl⟩, h, rfl⟩

theorem worksOn_machineWith {settings : String} (h : loadText settings = .ok s)
    (hqueue : s.output.queueDepth.toNat ≤ 2305843009213693951) (input : List UInt8) :
    WorksOn (machineWith settings input) ["-c", "daemon.toml"] s input := by
  obtain ⟨files, hserves⟩ := serves_machineWith h input
  exact ⟨⟨_, files, hserves, openInput_standard _ _⟩, hqueue⟩

end Daemon

end Notifications
