/-! What is logged: events under the part of the program they come from. -/
namespace Notifications

inductive Level
  | error | warn | info | debug | trace
  deriving DecidableEq, Repr

namespace Level

/-- More detail has a higher rank. -/
def rank : Level → Nat
  | error => 1
  | warn => 2
  | info => 3
  | debug => 4
  | trace => 5

def name : Level → String
  | error => "error"
  | warn => "warn"
  | info => "info"
  | debug => "debug"
  | trace => "trace"

def label : Level → String
  | error => "ERROR"
  | warn => "WARN"
  | info => "INFO"
  | debug => "DEBUG"
  | trace => "TRACE"

def all : List Level := [error, warn, info, debug, trace]

end Level

/-- The parts of the program that log. -/
inductive Origin
  | batch | pipeline | daemon | settings | logging | input | sink
  deriving DecidableEq, Repr

def Origin.target : Origin → String
  | .batch => "notification_assembler::batch"
  | .pipeline => "notification_assembler::pipeline"
  | .daemon => "notification_daemon"
  | .settings => "notification_daemon::config"
  | .logging => "notification_daemon::diagnostics"
  | .input => "notification_daemon::input"
  | .sink => "notification_daemon::sink"

/-- One event; the group and the time of a notice are there for events about one. -/
structure Event where
  level : Level
  origin : Origin
  message : String
  group : Option String
  time : Option Int64
  deriving DecidableEq, Repr

/-- The names of the fields an event has. -/
def Event.fieldNames (e : Event) : List String :=
  "message" :: e.group.toList.map (fun _ => "group") ++ e.time.toList.map (fun _ => "when")

def Event.plain (level : Level) (origin : Origin) (message : String) : Event :=
  ⟨level, origin, message, none, none⟩

end Notifications
