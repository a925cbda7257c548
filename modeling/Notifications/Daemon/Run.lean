import Notifications.CommandLine
import Notifications.Daemon.Error
import Notifications.Daemon.Session
import Notifications.Settings.Store
/-!
A run of the daemon: from its arguments, the files and the input to an ending, its output and its
log.
-/
namespace Notifications

/-- What the daemon is started with. -/
structure Machine where
  files : Files
  /-- The directory that relative paths begin at. -/
  directory : Place
  home : String
  /-- The directory for configuration, if one is named. -/
  configHome : Option String
  /-- A filter for the log, which goes before the one on the command line. -/
  logFilter : Option String
  input : List UInt8
  /-- The standard output is read by someone. -/
  hasReader : Bool

inductive Ending
  | done
  | refused (r : Refusal)
  | failed (e : DaemonError)
  /-- The daemon broke off without a report of its own. -/
  | broken

def Ending.code : Ending → Nat
  | .done => 0
  | .refused r => if r.isRequest then 0 else 2
  | .failed _ => 1
  | .broken => 101

structure Outcome where
  ending : Ending
  output : List UInt8
  log : List Event
  files : Files
  /-- The counters of the pipeline, if one was run. -/
  stats : Option Stats

namespace Daemon

def versionText : String := "notification-daemon 0.3.0\n"

def endsWith (e : Ending) (files : Files) : Outcome := ⟨e, [], [], files, none⟩

def printed (m : Machine) (files : Files) (text : List Char) : Outcome :=
  if m.hasReader then ⟨.done, Text.encodeUtf8 text, [], files, none⟩ else endsWith .broken files

/-- Text that only the request for it brings up is printed if someone reads it. -/
def refuse (m : Machine) (r : Refusal) : Outcome :=
  let output := if r = .version ∧ m.hasReader then Text.encodeUtf8 versionText.toList else []
  ⟨.refused r, output, [], m.files, none⟩

/-- Shows the settings in effect. -/
def dumpConfig (m : Machine) (path : FilePath) : Outcome :=
  let loaded := Settings.load path m.files
  match loaded.result with
  | .error e => endsWith (.failed (.settings e)) loaded.files
  | .ok s =>
    match s.text with
    | .error e => endsWith (.failed (.unprintable e)) loaded.files
    | .ok cs => printed m loaded.files ("# ".toList ++ path.written.toList ++ '\n' :: cs ++ ['\n'])

/-- The feed from the standard input or from a file. -/
def openInput (m : Machine) (files : Files) (input : String) : Except DaemonError (List Feed) :=
  if input = "-" then .ok (Feed.ofBytes m.input)
  else
    match files.read (.ofString m.directory input) with
    | .ok bytes => .ok (Feed.ofBytes bytes)
    | .error .isDirectory => .ok (Feed.unreadable FileError.isDirectory.message)
    | .error e => .error (.input input e.message)

def settingsEvents (s : Settings) : List Event :=
  [.plain .info .daemon ("Output format: " ++ s.output.format.title),
    .plain .info .daemon
      ("Max messages per conversation: " ++ toString s.assembly.maxMessages.toNat)]

/-- Reads the input and posts its batches, with settings that have been loaded. -/
def post (turns : List Turn) (m : Machine) (c : CommandLine) (s : Settings) (files : Files) :
    Outcome :=
  match Channel.capacityFor? s.output.queueDepth.toNat with
  | none => endsWith .broken files
  | some capacity =>
    match openInput m files c.input with
    | .error e => endsWith (.failed e) files
    | .ok feed =>
      let session := sessionFor turns capacity s m.hasReader feed
      let ending := match session.result with
        | .ok () => Ending.done
        | .error f => .failed (.pipeline f)
      ⟨ending, session.output, settingsEvents s ++ session.events, files, some session.stats⟩

def startEvents (c : CommandLine) (directive : String) : List Event :=
  [.plain .info .logging ("Logging initialized: filter=" ++ directive ++
      ", json=" ++ toString c.jsonLogs ++ ", timestamps=" ++ toString c.timestamps),
    .plain .info .daemon "Starting notification daemon..."]

/-- The filter from the environment, or else the one for the level that was asked for. -/
def filterFor (m : Machine) (directive : String) : LogFilter :=
  ((m.logFilter.bind LogFilter.ofText?) <|> LogFilter.ofText? directive).getD ⟨[]⟩

/-- Runs the daemon proper. -/
def serve (turns : List Turn) (m : Machine) (c : CommandLine) (path : FilePath) : Outcome :=
  match c.logDirective with
  | .error chain => endsWith (.failed (.logging chain)) m.files
  | .ok directive =>
    let loaded := Settings.load path m.files
    let outcome := match loaded.result with
      | .error e => endsWith (.failed (.settings e)) loaded.files
      | .ok s => post turns m c s loaded.files
    { outcome with
      log := (startEvents c directive ++ loaded.events ++ outcome.log).filter
        (filterFor m directive).passes }

/-- A run in which the given turns are taken first. -/
def runWith (turns : List Turn) (m : Machine) (args : List String) : Outcome :=
  match CommandLine.ofArgs args with
  | .error r => refuse m r
  | .ok c =>
    let path := FilePath.ofString m.directory (c.configPath m.home m.configHome)
    match c.command with
    | some .version => printed m m.files versionText.toList
    | some .dumpConfig => dumpConfig m path
    | none => serve turns m c path

def run (m : Machine) (args : List String) : Outcome := runWith [] m args

end Daemon

end Notifications
