import Notifications.Files
import Notifications.Log
import Notifications.Settings.Text
import Notifications.Text.Utf8
/-! Settings in files. A file that is missing is written with the default settings. -/
namespace Notifications.Settings

/-- Writes settings to a file, their templates in the order of `templates`. The directory of the
file is made if it is missing, and stays when the settings cannot be written. -/
def saveWith (s : Settings) (templates : List (String × String)) (path : FilePath) (f : Files) :
    Except SettingsError Unit × Files :=
  match f.makeParent path with
  | (.error e, f) => (.error (.noDirectory e.message), f)
  | (.ok (), f) =>
    match s.textWith templates with
    | none => (.error .tooLarge, f)
    | some cs =>
      match f.write path (Text.encodeUtf8 cs) with
      | .error e => (.error (.unwritable e.message), f)
      | .ok f => (.ok (), f)

/-- Writes settings with the templates sorted by key. -/
def save (s : Settings) (path : FilePath) (f : Files) : Except SettingsError Unit × Files :=
  s.saveWith s.render.templates.entries path f

/-- Reads the settings of a file that is there, and validates them. -/
def ofFile (path : FilePath) (f : Files) : Except SettingsError Settings :=
  match f.read path with
  | .error e => .error (.unreadable path.written e.message)
  | .ok bytes =>
    match Text.decodeUtf8 0 bytes with
    | .error _ => .error (.unreadable path.written FileError.notText.message)
    | .ok cs => do
      let s ← ofText cs
      s.validate
      return s

/-- What loading settings answers, what it logs, and the files after it. -/
structure Loaded where
  result : Except SettingsError Settings
  events : List Event
  files : Files

def load (path : FilePath) (f : Files) : Loaded :=
  match f.find path with
  | .ok _ => ⟨ofFile path f, [], f⟩
  | .error _ =>
    match default.save path f with
    | (.error e, f) => ⟨.error e, [], f⟩
    | (.ok (), f) =>
      ⟨.ok default,
        [.plain .info .settings ("Wrote default configuration to " ++ path.written)], f⟩

end Notifications.Settings
