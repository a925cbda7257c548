import Notifications.LogFilter
/-!
The command line: options with values, flags, and a subcommand. An option that stands without its
value is settled only when the next argument is read, so that a value may follow it.
-/
namespace Notifications

inductive Subcommand
  | version | dumpConfig
  deriving DecidableEq, Repr

/-- Why the daemon does not run with some arguments. -/
inductive Refusal
  | help | version
  | unknownArgument | invalidValue | argumentConflict | tooManyValues | invalidSubcommand
  deriving DecidableEq, Repr

/-- Help and the version are shown because they were asked for. -/
def Refusal.isRequest : Refusal → Bool
  | .help | .version => true
  | _ => false

structure CommandLine where
  /-- The file of the settings, if it is not the usual one. -/
  config : Option String
  /-- The file of the input; a dash stands for the standard input. -/
  input : String
  logLevel : String
  jsonLogs : Bool
  timestamps : Bool
  command : Option Subcommand
  deriving DecidableEq, Repr

namespace CommandLine

/-- The options that take a value. -/
inductive Setting
  | config | input | logLevel
  deriving DecidableEq, Repr

inductive Switch
  | jsonLogs | noTimestamps
  deriving DecidableEq, Repr

/-- What a name on the command line stands for. -/
inductive Named
  | setting (s : Setting)
  | switch (s : Switch)
  | request (r : Refusal)
  deriving DecidableEq, Repr

def longNames : List (String × Named) :=
  [("config", .setting .config), ("input", .setting .input), ("log-level", .setting .logLevel),
    ("json-logs", .switch .jsonLogs), ("no-timestamps", .switch .noTimestamps),
    ("help", .request .help), ("version", .request .version)]

def shortNames : List (Char × Named) :=
  [('c', .setting .config), ('i', .setting .input), ('l', .setting .logLevel),
    ('h', .request .help), ('V', .request .version)]

def subcommands : List (String × Subcommand) :=
  [("version", .version), ("dump-config", .dumpConfig)]

/-- The name of the subcommand that asks for help. -/
def helpName : String := "help"

def isSubcommand (name : String) : Bool := name == helpName || (subcommands.lookup name).isSome

/-- The form of an argument. -/
inductive Form
  | escape
  | long (name : String) (value : Option String)
  | short (name : Char) (rest : List Char)
  | plain
  deriving DecidableEq, Repr

def Form.of (arg : String) : Form :=
  match arg.toList with
  | ['-', '-'] => .escape
  | '-' :: '-' :: r =>
    let name := String.ofList (r.takeWhile (· != '='))
    match r.dropWhile (· != '=') with
    | [] => .long name none
    | _ :: value => .long name (some (String.ofList value))
  | '-' :: c :: r => .short c r
  | _ => .plain

/-- The value that is attached to a short option, with or without an equals sign. -/
def attached : List Char → Option String
  | [] => none
  | '=' :: r => some (String.ofList r)
  | r => some (String.ofList r)

/-- What has been given, and an option whose value has not been looked at yet. -/
structure Given where
  values : List (Setting × String)
  switches : List Switch
  pending : Option (Setting × Option String)

namespace Given

def start : Given := ⟨[], [], none⟩

def value? (g : Given) (s : Setting) : Option String := g.values.lookup s

/-- Each option is given once; the file of the settings has a name. -/
def store (g : Given) (s : Setting) (value : String) : Except Refusal Given :=
  if (g.value? s).isSome then .error .argumentConflict
  else if s = .config ∧ value = "" then .error .invalidValue
  else .ok { g with values := (s, value) :: g.values }

/-- Looks at the value of the pending option. -/
def settle (g : Given) : Except Refusal Given :=
  match g.pending with
  | none => .ok g
  | some (_, none) => .error .invalidValue
  | some (s, some value) => { g with pending := none }.store s value

/-- A value comes next. -/
def wantsValue? (g : Given) : Option Setting :=
  match g.pending with
  | some (s, none) => some s
  | _ => none

def give (g : Given) (s : Setting) : Option String → Except Refusal Given
  | some value => do (← g.settle).store s value
  | none => do return { ← g.settle with pending := some (s, none) }

def turn (g : Given) (s : Switch) : Except Refusal Given := do
  let g ← g.settle
  if s ∈ g.switches then .error .argumentConflict
  else return { g with switches := s :: g.switches }

/-- An argument that begins with a dash. -/
def named (g : Given) (n : Option Named) (value : Option String) : Except Refusal Given :=
  match n, value with
  | none, _ => .error .unknownArgument
  | some (.setting s), value => g.give s value
  | some _, some _ => .error .tooManyValues
  | some (.switch s), none => g.turn s
  | some (.request r), none => do
    let _ ← g.settle
    .error r

def finish (g : Given) (command : Option Subcommand) : Except Refusal CommandLine := do
  let g ← g.settle
  return {
    config := g.value? .config
    input := (g.value? .input).getD "-"
    logLevel := (g.value? .logLevel).getD "info"
    jsonLogs := .jsonLogs ∈ g.switches
    timestamps := .noTimestamps ∉ g.switches
    command := command }

end Given

/-- A subcommand has no arguments of its own but the request for help. -/
def checkSubcommand : List String → Except Refusal Unit
  | [] => .ok ()
  | arg :: rest =>
    match Form.of arg with
    | .escape => if rest.isEmpty then .ok () else .error .unknownArgument
    | .long name value =>
      if name = helpName then .error (if value.isSome then .tooManyValues else .help)
      else .error .unknownArgument
    | .short name _ => .error (if name = 'h' then .help else .unknownArgument)
    | .plain => .error .unknownArgument

/-- Help may be asked for about one subcommand. -/
def helpAbout : List String → Refusal
  | [] => .help
  | [name] => if isSubcommand name then .help else .invalidSubcommand
  | _ => .invalidSubcommand

/-- An argument behind two dashes is no option; here it can only be out of place. -/
def afterEscape (g : Given) : List String → Except Refusal CommandLine
  | [] => g.finish none
  | arg :: _ => .error (if isSubcommand arg then .unknownArgument else .invalidSubcommand)

def read (g : Given) : List String → Except Refusal CommandLine
  | [] => g.finish none
  | arg :: rest =>
    match Form.of arg with
    | .escape => afterEscape g rest
    | .long name value => do read (← g.named (longNames.lookup name) value) rest
    | .short name r => do
      match shortNames.lookup name with
      | some (.setting s) => read (← g.give s (attached r)) rest
      | n => read (← g.named n none) rest
    | .plain =>
      match g.wantsValue? with
      | some s => read { g with pending := some (s, some arg) } rest
      | none =>
        if arg = helpName then .error (helpAbout rest)
        else
          match subcommands.lookup arg with
          | some c => do
            checkSubcommand rest
            g.finish (some c)
          | none => .error .invalidSubcommand

/-- The command line that some arguments make, the name of the program left out. -/
def ofArgs (args : List String) : Except Refusal CommandLine := read .start args

/-- A name under a directory; a slash at the directory's end is not doubled. -/
def under (directory name : String) : String :=
  if directory = "" ∨ directory.toList.getLast? = some '/' then directory ++ name
  else directory ++ "/" ++ name

/-- The usual file of the settings: in the directory for configuration, which lies in the home
directory unless an absolute path names another. -/
def usualConfig (home : String) (configHome : Option String) : String :=
  let directory :=
    match configHome with
    | some d => if d.toList.head? = some '/' then d else under home ".config"
    | none => under home ".config"
  under (under directory "notification-assembler") "daemon.toml"

def configPath (c : CommandLine) (home : String) (configHome : Option String) : String :=
  c.config.getD (usualConfig home configHome)

/-- The filter for the level that was asked for. -/
def logDirective (c : CommandLine) : Except (List String) String :=
  match Level.ofText? c.logLevel with
  | some l =>
    .ok ("warn,notification_daemon=" ++ l.name ++ ",notification_assembler=" ++ l.name)
  | none =>
    .error ["Invalid log level '" ++ c.logLevel ++
      "'. Valid levels: error, warn, info, debug, trace", Level.expected]

end CommandLine

end Notifications
