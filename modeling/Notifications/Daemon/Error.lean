import Notifications.Settings.Basic
import Notifications.Text.Split
/-! Why a run of the daemon failed, and its report: the error, then what caused it. -/
namespace Notifications

inductive DaemonError
  | logging (chain : List String)
  | settings (e : SettingsError)
  | unprintable (e : SettingsError)
  | input (path reason : String)
  | pipeline (f : Failure)

namespace DaemonError

/-- The texts of an error, from what was wanted down to the cause. -/
def chain : DaemonError → List String
  | logging chain => "Failed to initialize logging" :: chain
  | settings e => "Failed to load configuration" :: e.chain
  | unprintable e => e.chain
  | input path reason => ["Failed to open input " ++ path, reason]
  | pipeline f => ["Notification pipeline failed", f.message]

/-- The text of the settings is at fault. -/
def isAboutText : DaemonError → Bool
  | settings e => e.isAboutText
  | _ => false

/-- The lines of a text with `first` before the first one and `later` before the others. -/
def indent (first later : String) (s : String) : List String :=
  match (Text.splitAt '\n' s.toList).map String.ofList with
  | [] => []
  | l :: ls => (first ++ l) :: ls.map (later ++ ·)

def numbered (n : Nat) (s : String) : List String :=
  let digits := toString n
  indent (String.ofList (List.replicate (5 - digits.length) ' ') ++ digits ++ ": ") "       " s

def causes : List String → List (List String)
  | [] => []
  | [cause] => [["", "Caused by:"], indent "    " "    " cause]
  | chain => ["", "Caused by:"] :: chain.mapIdx numbered

/-- The report of an error, the lines of each text by themselves. -/
def report (e : DaemonError) : List (List String) :=
  match e.chain with
  | [] => []
  | s :: r => indent "Error: " "" s :: causes r

end DaemonError

end Notifications
