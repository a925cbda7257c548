import Notifications.Assembly
import Notifications.Render.Templates
/-! The settings of the daemon. A setting that is left out has its default. -/
namespace Notifications

open Data (Error Format Schema)

/-- Where notices go: lines of JSON on the standard output, or the log. -/
inductive OutputFormat
  | json | rendered
  deriving DecidableEq, Repr

namespace OutputFormat

def name : OutputFormat → String
  | json => "json"
  | rendered => "rendered"

/-- The format as it is logged. -/
def title : OutputFormat → String
  | json => "Json"
  | rendered => "Rendered"

def names : List (String × OutputFormat) := [json, rendered].map fun f => (f.name, f)

end OutputFormat

structure OutputSettings where
  format : OutputFormat
  /-- How many batches may wait for the pipeline. -/
  queueDepth : UInt64
  deriving DecidableEq, Repr

structure Settings where
  assembly : Limits
  render : Render.Style
  output : OutputSettings
  deriving DecidableEq

namespace OutputSettings

def default : OutputSettings := ⟨.json, 16⟩

def schema {ν : Type} (f : Format ν) : Schema ν [OutputFormat, UInt64] :=
  .field (.withDefault "format" (f.choice OutputFormat.names) default.format) <|
  .field (.withDefault "queue_depth" f.count default.queueDepth) .done

def reader {ν : Type} (f : Format ν) (v : ν) : Except Error OutputSettings := do
  let (format, queueDepth, ()) ← f.record "struct OutputConfig" (schema f) v
  return ⟨format, queueDepth⟩

end OutputSettings

namespace Settings

def default : Settings := ⟨.default, .default, .default⟩

def schema {ν : Type} (f : Format ν) : Schema ν [Limits, Render.Style, OutputSettings] :=
  .field (.withDefault "assembly" (Limits.reader f) default.assembly) <|
  .field (.withDefault "render" (Render.Style.reader f) default.render) <|
  .field (.withDefault "output" (OutputSettings.reader f) default.output) .done

def reader {ν : Type} (f : Format ν) (v : ν) : Except Error Settings := do
  let (assembly, render, output, ()) ← f.record "struct Config" (schema f) v
  return ⟨assembly, render, output⟩

end Settings

/-- Why settings cannot be used, read or kept. -/
inductive SettingsError
  | noQueue
  | badStyle (f : Failure)
  | malformed
  | undecodable (e : Error)
  | unreadable (path reason : String)
  | noDirectory (reason : String)
  | tooLarge
  | unwritable (reason : String)
  deriving DecidableEq, Repr

namespace SettingsError

/-- The texts of an error, from what was wanted down to the cause. -/
def chain : SettingsError → List String
  | noQueue => ["output.queue_depth must be at least 1"]
  | badStyle f => ["Invalid [render] section", f.message]
  | malformed => ["Failed to parse config file", "<toml syntax>"]
  | undecodable e => ["Failed to parse config file", e.message]
  | unreadable path reason => ["Failed to read config file " ++ path, reason]
  | noDirectory reason => ["Failed to create config directory", reason]
  | tooLarge => ["Failed to serialize config", "out-of-range value for u64 type"]
  | unwritable reason => ["Failed to write config file", reason]

/-- The text of the settings is at fault. -/
def isAboutText : SettingsError → Bool
  | malformed | undecodable _ => true
  | _ => false

end SettingsError

/-- Refuses settings that the pipeline cannot work with. -/
def Settings.validate (s : Settings) : Except SettingsError Unit :=
  if s.output.queueDepth = 0 then .error .noQueue
  else
    match s.render.validate with
    | .ok () => .ok ()
    | .error f => .error (.badStyle f)

end Notifications
