import Notifications.Daemon.Run
import Notifications.Log.Line
/-! The daemon as a program: it looks up the files it may need, runs, and writes what came of it. -/
namespace Notifications

def usage : String :=
  "Usage: notification-daemon [--config PATH] [--input PATH] [--log-level LEVEL] [--json-logs]\n" ++
  "                           [--no-timestamps] [version | dump-config | help]\n"

def pathOf (p : Place) : String := "/" ++ "/".intercalate p

/-- What stands at a place of the file system. -/
def look (p : Place) : IO (Option FileEntry) := do
  try
    if ← (← IO.FS.realPath (pathOf p)).isDir then return some .directory
    else return some (.file (← IO.FS.readBinFile (pathOf p)).toList)
  catch _ => return none

/-- The entries on the way along some names from the directory at `here`. -/
def lookAlong (here : Place) : List String → IO (List (Place × FileEntry))
  | [] => return []
  | name :: rest => do
    if name == "." then lookAlong here rest
    else if name == ".." then lookAlong here.dropLast rest
    else
      let p := here ++ [name]
      let found := (← look p).toList.map fun e => (p, e)
      return found ++ (← lookAlong p rest)

/-- The entries on the way to what a path leads to, from the root. -/
def lookTo (p : FilePath) : IO (List (Place × FileEntry)) :=
  lookAlong [] (p.start ++ p.names.reverse)

partial def readAll (s : IO.FS.Stream) (read : ByteArray) : IO ByteArray := do
  let more ← s.read 65536
  if more.isEmpty then return read else readAll s (read ++ more)

/-- Makes the directories and files that a run has added. -/
def writeNew (before after : Files) : IO Unit := do
  for (p, e) in after.entries.reverse do
    if before.get? p ≠ some e then
      match e with
      | .directory => IO.FS.createDirAll (pathOf p)
      | .file bytes => IO.FS.writeBinFile (pathOf p) ⟨bytes.toArray⟩

def machineFor (c : CommandLine) : IO Machine := do
  let here := (FilePath.ofString [] (← IO.currentDir).toString).names.reverse
  let home := (← IO.getEnv "HOME").getD ""
  let configHome ← IO.getEnv "XDG_CONFIG_HOME"
  let config := FilePath.ofString here (c.configPath home configHome)
  let readsInput := c.input == "-" && c.command.isNone
  let input ← if readsInput then readAll (← IO.getStdin) .empty else pure .empty
  return {
    files := .ofEntries ((← lookTo config) ++ (← lookTo (.ofString here c.input)))
    directory := here
    home := home
    configHome := configHome
    logFilter := ← IO.getEnv "RUST_LOG"
    input := input.toList
    hasReader := true }

def runProgram (args : List String) : IO UInt32 := do
  let error ← IO.getStderr
  match CommandLine.ofArgs args with
  | .error .version => IO.print Daemon.versionText
  | .error .help => IO.print usage
  | .error _ => error.putStr usage
  | .ok _ => pure ()
  match CommandLine.ofArgs args with
  | .error r => return (Ending.refused r).code.toUInt32
  | .ok c =>
    let machine ← machineFor c
    let outcome := Daemon.run machine args
    for e in outcome.log do
      error.putStrLn (if c.jsonLogs then e.node.print else e.line)
    writeNew machine.files outcome.files
    let output ← IO.getStdout
    output.write ⟨outcome.output.toArray⟩
    output.flush
    if let .failed e := outcome.ending then
      for l in e.report.flatten do error.putStrLn l
    return outcome.ending.code.toUInt32

end Notifications

def main (args : List String) : IO UInt32 := Notifications.runProgram args
