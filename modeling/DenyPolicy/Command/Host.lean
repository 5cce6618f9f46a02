import DenyPolicy.Time.Instant
import DenyPolicy.Audit.Event
/-!
# The machine a command runs on

A command reads, writes and appends to files, prints to two streams, reads the clock and
draws fresh event ids; `Host` names exactly these effects, so that commands are
written once and run both on the real machine and on `Workspace`, a pure model
of a project directory.  A command that fails ends in a `Failure`, printed as
its message with the causes under it.

Paths are texts.  `joinPath` puts a name under a directory and `parentPath?`
takes the last name off, both by the text alone, as the command's messages
show paths exactly as they were joined.
-/

namespace DenyPolicy

/-- Why a file could not be read: it could not be opened, or it was opened and
its bytes could not be read, as with a directory. -/
inductive ReadFault where
  | unopened (reason : String)
  | unread (reason : String)
  deriving Repr, DecidableEq

/-- The operating system's reason for a failed read. -/
def ReadFault.reason : ReadFault → String
  | .unopened r | .unread r => r

/-- What a command needs from the machine it runs on. -/
class Host (m : Type → Type) where
  /-- The text of a file, or why it cannot be read. -/
  readFile : String → m (Except ReadFault String)
  /-- Writes a file, making it when it is missing; the reason on failure. -/
  writeFile : String → String → m (Except String Unit)
  /-- Adds text at the end of a file, making it when it is missing; the reason
  on failure. -/
  appendFile : String → String → m (Except String Unit)
  /-- Makes a directory and the directories above it that are missing; the
  reason on failure. -/
  makeDirectories : String → m (Except String Unit)
  /-- Whether a file or directory is there. -/
  isPresent : String → m Bool
  /-- Prints to standard output. -/
  out : String → m Unit
  /-- Prints to standard error. -/
  err : String → m Unit
  /-- The current time. -/
  now : m Instant
  /-- A fresh event id. -/
  freshId : m Uuid
  /-- The absolute form of a directory, or the path itself when it has none. -/
  canonical : String → m String

/-- A failed command: its message, and the causes under it, outermost first. -/
structure Failure where
  message : String
  causes : List String := []
  deriving Repr, DecidableEq

/-- A cause under `Caused by:`, its lines after the first indented to stand
under its first: by four spaces, or by seven under a numbered cause. -/
def indentCause (numbered : Bool) (cause : String) : String :=
  ("\n" ++ if numbered then "       " else "    ").intercalate (cause.splitOn "\n")

/-- The text printed for a failure: `Error: ` and the message, then the causes
under `Caused by:`, numbered from zero in a column five wide when there are
several. -/
def Failure.render (f : Failure) : String :=
  let causes := match f.causes with
    | [] => ""
    | [c] => "\n\nCaused by:\n    " ++ indentCause false c
    | cs => "\n\nCaused by:" ++ String.join ((List.range cs.length).zip cs |>.map fun (i, c) =>
        let n := toString i
        "\n" ++ String.ofList (List.replicate (5 - n.length) ' ') ++ n ++ ": " ++ indentCause true c)
  "Error: " ++ f.message ++ causes ++ "\n"

/-- The failure `f` under a message that says what was being done: the
message of `f` becomes the first of the causes. -/
def Failure.within (context : String) (f : Failure) : Failure :=
  { message := context, causes := f.message :: f.causes }

/-- Joins a path onto a directory; an absolute path stands for itself. -/
def joinPath (dir path : String) : String :=
  if path.startsWith "/" ∨ dir.isEmpty then path
  else if dir.endsWith "/" then dir ++ path
  else dir ++ "/" ++ path

/-- The names of a path, by its text: empty names and `.` are left out, but a
path that starts with `./` keeps that `.` as its first name. -/
def pathNames (path : String) : List String :=
  let parts := Text.splitOnChar path '/'
  let kept := parts.filter fun p => p ≠ "" ∧ p ≠ "."
  if !path.startsWith "/" ∧ parts.head? = some "." then "." :: kept else kept

/-- The path of the directory above a path, by its text, when it is not empty. -/
def parentPath? (path : String) : Option String :=
  let names := pathNames path
  let parent := (if path.startsWith "/" then "/" else "") ++ "/".intercalate names.dropLast
  if names.isEmpty ∨ parent.isEmpty then none else some parent

end DenyPolicy
