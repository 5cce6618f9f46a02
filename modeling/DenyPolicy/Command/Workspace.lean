import DenyPolicy.Command.Host
/-!
# A project directory in memory

`Workspace` is a pure model of the directory a command runs in: its files by
their places, the directories made in it, and what was printed.  A place is the
list of names from the root down.  A directory stands at the root, at each
place above a file or a made directory, and at each made directory.

A path is followed name by name, as the operating system follows it.  A relative
path starts at the root, and so does a path that starts with the root's own
path.  Each name on the way must be a directory: a file there is "not a
directory", a missing name is "no such file".  `.` stays and `..` goes up.
Above the root nothing is known: a read there finds nothing, and a write there
is not kept.

A directory opens but does not read, so reading one fails after it is opened;
writing one fails at once.
-/

namespace DenyPolicy

/-- The operating system's reasons for the failed file operations that the
model meets. -/
inductive FileFault where
  | notFound
  | notADirectory
  | isADirectory
  | alreadyExists
  deriving Repr, DecidableEq

/-- The operating system's description of a fault, with its error number. -/
def FileFault.reason : FileFault → String
  | .notFound => "No such file or directory (os error 2)"
  | .notADirectory => "Not a directory (os error 20)"
  | .isADirectory => "Is a directory (os error 21)"
  | .alreadyExists => "File exists (os error 17)"

/-- What stands at a place: a file with its text, or a directory. -/
inductive Entry where
  | file (text : String)
  | directory
  deriving Repr, DecidableEq

/-- Where a path leads once the directories on its way are passed. -/
inductive Target where
  /-- The place of its last name; `slash` when the path ends in a slash, which
  asks for a directory there. -/
  | named (place : List String) (slash : Bool)
  /-- A directory named by `.` or `..`, or the start of the path itself. -/
  | directory
  /-- A name above the root. -/
  | outside
  deriving Repr, DecidableEq

/-- A project directory in memory: its root's path, its files by place, the
directories made in it, what was printed, and the clock. -/
structure Workspace where
  root : String
  files : List (List String × String) := []
  directories : List (List String) := []
  stdout : String := ""
  stderr : String := ""
  clock : Instant := Instant.epoch
  deriving Repr, DecidableEq

namespace Workspace

def above (a b : List String) : Bool := a.length < b.length && a.isPrefixOf b

/-- What stands at a place. -/
def entry? (w : Workspace) (place : List String) : Option Entry :=
  match w.files.lookup place with
  | some text => some (.file text)
  | none =>
    if place.isEmpty || w.directories.contains place || w.files.any (fun f => above place f.1) ||
        w.directories.any (above place) then some .directory
    else none

def up : Option (List String) → Option (List String)
  | some [] | none => none
  | some p => some p.dropLast

/-- Passes the directories that `names` name, from `here` (`none` above the
root); the answer is the place reached. -/
def pass (w : Workspace) : Option (List String) → List String → Except FileFault (Option (List String))
  | here, [] => .ok here
  | here, name :: rest =>
    if name = "." then w.pass here rest
    else if name = ".." then w.pass (up here) rest
    else match here with
      | none => .error .notFound
      | some p =>
        match w.entry? (p ++ [name]) with
        | some .directory => w.pass (some (p ++ [name])) rest
        | some (.file _) => .error .notADirectory
        | none => .error .notFound

/-- Where following `path` starts, and the text whose names it follows: the root
itself and a path under it start at the root with what follows the root, another
absolute path starts above the root, and a relative path at the root, where a
command is taken to run. -/
def lead (root path : String) : Option (List String) × String :=
  if path = root then (some [], "")
  else if path.startsWith (root ++ "/") then (some [], (path.drop (root.length + 1)).toString)
  else if path.startsWith "/" then (none, path)
  else (some [], path)

/-- Where the names of `rest` lead from `start`, for the whole path `path`. -/
def follow (w : Workspace) (start : Option (List String)) (rest path : String) : Except FileFault Target :=
  match ((Text.splitOnChar rest '/').filter (· ≠ "")).reverse with
  | [] => if path.isEmpty then .error .notFound else .ok .directory
  | last :: before => do
    let here ← w.pass start before.reverse
    if last = "." ∨ last = ".." then pure .directory
    else match here with
      | none => pure .outside
      | some p => pure (.named (p ++ [last]) (rest.endsWith "/"))

/-- Where `path` leads, or the fault met on the way. -/
def resolve (w : Workspace) (path : String) : Except FileFault Target :=
  w.follow (lead w.root path).1 (lead w.root path).2 path

/-- Reads the file at `path`. -/
def read (w : Workspace) (path : String) : Except ReadFault String :=
  match w.resolve path with
  | .error f => .error (.unopened f.reason)
  | .ok .directory => .error (.unread FileFault.isADirectory.reason)
  | .ok .outside => .error (.unopened FileFault.notFound.reason)
  | .ok (.named place slash) =>
    match w.entry? place with
    | some (.file text) => if slash then .error (.unopened FileFault.notADirectory.reason) else .ok text
    | some .directory => .error (.unread FileFault.isADirectory.reason)
    | none => .error (.unopened FileFault.notFound.reason)

def fileText? (w : Workspace) (path : String) : Option String :=
  (w.read path).toOption

/-- Whether a file or directory is at `path`. -/
def isPresent (w : Workspace) (path : String) : Bool :=
  match w.resolve path with
  | .ok .directory => true
  | .ok (.named place slash) =>
    match w.entry? place with
    | some (.file _) => !slash
    | some .directory => true
    | none => false
  | _ => false

def isDirectory (w : Workspace) (path : String) : Bool :=
  match w.resolve path with
  | .ok .directory => true
  | .ok (.named place _) => w.entry? place == some .directory
  | _ => false

def setFile (w : Workspace) (place : List String) (text : String) : Workspace :=
  if w.files.any (·.1 == place) then
    { w with files := w.files.map fun (p, t) => if p == place then (p, text) else (p, t) }
  else { w with files := w.files ++ [(place, text)] }

/-- Writes `text` into the file at `path`, making it when it is missing, after
its old text when `append` holds.  A path above the root names no place the
workspace holds: the write is taken as done and nothing is kept. -/
def store (w : Workspace) (path text : String) (append : Bool) : Except FileFault Workspace :=
  match w.resolve path with
  | .error f => .error f
  | .ok .directory => .error .isADirectory
  | .ok .outside => .ok w
  | .ok (.named place slash) =>
    match w.entry? place with
    | some .directory => .error .isADirectory
    | some (.file old) =>
      if slash then .error .notADirectory
      else .ok (w.setFile place (if append then old ++ text else text))
    | none => if slash then .error .isADirectory else .ok (w.setFile place text)

/-- Makes the directory at `path`, whose directory must be there already. -/
def makeDirectory (w : Workspace) (path : String) : Except FileFault Workspace :=
  match w.resolve path with
  | .error f => .error f
  | .ok .directory => .error .alreadyExists
  | .ok .outside => .ok w
  | .ok (.named place _) =>
    match w.entry? place with
    | some _ => .error .alreadyExists
    | none => .ok { w with directories := w.directories ++ [place] }

/-- Makes the directory whose path is `lead` and then `names` (last name
first): it is made at once when its directory is there, and otherwise after
the directories above it; one that is there already is kept. -/
def makeDirectoriesFrom (w : Workspace) (lead : String) : List String → Except FileFault Workspace
  | [] => .ok w
  | name :: before =>
    let path := lead ++ "/".intercalate (name :: before).reverse
    let settle (w : Workspace) (f : FileFault) : Except FileFault Workspace :=
      if w.isDirectory path then .ok w else .error f
    match w.makeDirectory path with
    | .ok w => .ok w
    | .error .notFound => do
      let w ← w.makeDirectoriesFrom lead before
      match w.makeDirectory path with
      | .ok w => .ok w
      | .error f => settle w f
    | .error f => settle w f

def makeDirectories (w : Workspace) (path : String) : Except FileFault Workspace :=
  if path.isEmpty then .ok w
  else w.makeDirectoriesFrom (if path.startsWith "/" then "/" else "") (pathNames path).reverse

def ofFiles (root : String) (files : List (String × String)) : Workspace :=
  files.foldl (fun w (path, text) => w.setFile ((Text.splitOnChar path '/').filter fun n => n ≠ "" ∧ n ≠ ".") text)
    { root }

def change (act : Workspace → Except FileFault Workspace) : StateM Workspace (Except String Unit) := do
  match act (← get) with
  | .ok w => do
    set w
    pure (.ok ())
  | .error f => pure (.error f.reason)

end Workspace

instance : Host (StateM Workspace) where
  readFile path := do pure ((← get).read path)
  writeFile path text := Workspace.change (·.store path text false)
  appendFile path text := Workspace.change (·.store path text true)
  makeDirectories path := Workspace.change (·.makeDirectories path)
  isPresent path := do pure ((← get).isPresent path)
  out s := modify fun w => { w with stdout := w.stdout ++ s }
  err s := modify fun w => { w with stderr := w.stderr ++ s }
  now := do pure (← get).clock
  freshId := pure Uuid.nil
  canonical path := pure path

end DenyPolicy
