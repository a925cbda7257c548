import Notifications.Text.Split
/-!
A store of files. A path is walked name by name, each step from a directory that is there, and what
is wanted of a name on the way or at its end can be refused.
-/
namespace Notifications

/-- The names on the way from the root down to a file or directory. -/
abbrev Place := List String

inductive FileError
  | notFound | permissionDenied | alreadyExists | notDirectory | isDirectory | readOnly | brokenPipe
  | nameTooLong
  /-- The bytes of a file are no text. -/
  | notText
  deriving DecidableEq, Repr

def FileError.message : FileError → String
  | .notFound => "No such file or directory (os error 2)"
  | .permissionDenied => "Permission denied (os error 13)"
  | .alreadyExists => "File exists (os error 17)"
  | .notDirectory => "Not a directory (os error 20)"
  | .isDirectory => "Is a directory (os error 21)"
  | .readOnly => "Read-only file system (os error 30)"
  | .brokenPipe => "Broken pipe (os error 32)"
  | .nameTooLong => "File name too long (os error 36)"
  | .notText => "stream did not contain valid UTF-8"

inductive FileEntry
  | file (bytes : List UInt8)
  | directory
  deriving DecidableEq, Repr

/-- What is wanted of a name in a directory: to look it up, to open for reading what has it, or to
make something of this name or open it for writing. -/
inductive Access
  | look | read | write
  deriving DecidableEq, Repr

/-- The root is a directory and has no entry of its own. -/
structure Files where
  entries : List (Place × FileEntry)
  /-- Why the system does not allow an access, if it does not: the rights of a directory or file, a
  name that is too long. -/
  refusal : Access → Place → Option FileError

/-- A path as it was given, where it begins, and its names from the last to the first. One with a
slash at its end leads to directories only. -/
structure FilePath where
  written : String
  start : Place
  names : List String
  slash : Bool
  deriving DecidableEq, Repr

namespace FilePath

/-- A path seen from the directory `here`. Slashes in a row are as good as one. -/
def ofString (here : Place) (s : String) : FilePath where
  written := s
  start := if s.toList.head? = some '/' then [] else here
  names := (((Text.splitAt '/' s.toList).map String.ofList).filter (· ≠ "")).reverse
  slash := s.toList.getLast? = some '/'

/-- The names of what a path is in; a dot at the end of a path is not counted. -/
def parent : List String → List String
  | [] => []
  | name :: above => if name = "." then parent above else above

end FilePath

/-- What a name stands for where it is looked up: a dot or two for a directory, any other for the
place that has this name, whether or not something is there. -/
inductive Spot
  | directory (p : Place)
  | named (p : Place)
  deriving DecidableEq, Repr

def Spot.place : Spot → Place
  | .directory p => p
  | .named p => p

namespace Files

/-- A store in which nothing is refused. -/
def ofEntries (entries : List (Place × FileEntry)) : Files := ⟨entries, fun _ _ => none⟩

def get? (f : Files) (p : Place) : Option FileEntry :=
  if p = [] then some .directory else f.entries.lookup p

def put (f : Files) (p : Place) (e : FileEntry) : Files :=
  { f with entries := (p, e) :: f.entries.filter (·.1 != p) }

theorem lookup_filter_ne {p q : Place} (h : q ≠ p) (l : List (Place × FileEntry)) :
    (l.filter (·.1 != p)).lookup q = l.lookup q := by
  induction l with
  | nil => rfl
  | cons a r ih =>
    obtain ⟨k, v⟩ := a
    by_cases hk : k = p
    · simp [hk, List.lookup_cons, beq_false_of_ne h, ih]
    · simp [hk, List.lookup_cons, ih]

theorem get?_put (f : Files) {p : Place} (e : FileEntry) (q : Place) (h : p ≠ []) :
    (f.put p e).get? q = if q = p then some e else f.get? q := by
  by_cases hq : q = p
  · simp [get?, put, hq, h]
  · simp [get?, put, List.lookup_cons, hq, beq_false_of_ne hq, lookup_filter_ne hq]

def allow (f : Files) (a : Access) (p : Place) : Except FileError Unit :=
  match f.refusal a p with
  | none => .ok ()
  | some e => .error e

/-- Looks a name up in the directory at `here`. -/
def look (f : Files) (here : Place) (name : String) : Except FileError Spot := do
  f.allow .look (here ++ [name])
  if name = "." then return .directory here
  else if name = ".." then return .directory here.dropLast
  else return .named (here ++ [name])

def at? (f : Files) : Spot → Option FileEntry
  | .directory _ => some .directory
  | .named p => f.get? p

/-- Goes on into what must be a directory. -/
def pass (f : Files) (spot : Spot) : Except FileError Place :=
  match f.at? spot with
  | none => .error .notFound
  | some (.file _) => .error .notDirectory
  | some .directory => .ok spot.place

/-- The directory that the names of a path lead to. -/
def enter (f : Files) (start : Place) : (names : List String) → Except FileError Place
  | [] => .ok start
  | name :: above => do f.pass (← f.look (← f.enter start above) name)

/-- Where the names of a path lead; only what is above the last one must be there. -/
def locate (f : Files) (start : Place) : (names : List String) → Except FileError Spot
  | [] => .ok (.directory start)
  | name :: above => do f.look (← f.enter start above) name

def isDirectory (f : Files) (start : Place) (names : List String) : Bool :=
  (f.enter start names).isOk

/-- What a path leads to, and its place; the empty path leads nowhere. -/
def find (f : Files) (p : FilePath) : Except FileError (Place × FileEntry) :=
  if p.written = "" then .error .notFound
  else do
    let spot ← f.locate p.start p.names
    match f.at? spot with
    | none => .error .notFound
    | some .directory => return (spot.place, .directory)
    | some (.file bytes) =>
      if p.slash then .error .notDirectory else return (spot.place, .file bytes)

/-- The bytes of a file. -/
def read (f : Files) (p : FilePath) : Except FileError (List UInt8) := do
  let (place, e) ← f.find p
  f.allow .read place
  match e with
  | .directory => .error .isDirectory
  | .file bytes => return bytes

def makeDirectory (f : Files) (start : Place) (names : List String) : Except FileError Files := do
  match ← f.locate start names with
  | .directory _ => .error .alreadyExists
  | .named p =>
    match f.get? p with
    | some _ => .error .alreadyExists
    | none =>
      f.allow .write p
      return f.put p .directory

/-- Makes a directory unless it is there. -/
def ensureDirectory (f : Files) (start : Place) (names : List String) :
    Except FileError Unit × Files :=
  match f.makeDirectory start names with
  | .ok f => (.ok (), f)
  | .error e => (if f.isDirectory start names then .ok () else .error e, f)

/-- Makes a directory, and the ones above it first if they are missing. Those that are made before
one is refused stay. -/
def makeDirectories (f : Files) (start : Place) :
    (names : List String) → Except FileError Unit × Files
  | [] => (.ok (), f)
  | name :: above =>
    if name = "." then f.makeDirectories start above
    else
      match f.makeDirectory start (name :: above) with
      | .error .notFound =>
        match f.makeDirectories start above with
        | (.ok (), f) => f.ensureDirectory start (name :: above)
        | failed => failed
      | _ => f.ensureDirectory start (name :: above)

/-- Makes what the path is in. -/
def makeParent (f : Files) (p : FilePath) : Except FileError Unit × Files :=
  f.makeDirectories p.start (FilePath.parent p.names)

/-- Writes a file, which is made if it is not there. -/
def write (f : Files) (p : FilePath) (bytes : List UInt8) : Except FileError Files :=
  if p.written = "" then .error .notFound
  else do
    match ← f.locate p.start p.names with
    | .directory _ => .error .isDirectory
    | .named place =>
      if p.slash ∨ f.get? place = some .directory then .error .isDirectory
      else do
        f.allow .write place
        return f.put place (.file bytes)

end Files

end Notifications
