import DenyPolicy.Command.Run
import Std.Time.DateTime.Timestamp
/-!
# The `pf` program

The commands run on the real machine: files are read and written through the
operating system, the clock is the system clock and event ids are random
version-4 UUIDs.  Reasons for failed file operations are written as the
operating system's description followed by its error number.
-/

namespace DenyPolicy.Machine

/-- The reason an operation failed: the system's description with its first
letter capitalised, and its error number. -/
def reason : IO.Error → String
  | .noFileOrDirectory _ code details
  | .permissionDenied _ code details
  | .alreadyExists _ code details
  | .inappropriateType _ code details
  | .invalidArgument _ code details
  | .resourceExhausted _ code details
  | .noSuchThing _ code details =>
    let d := details.capitalize
    d ++ " (os error " ++ toString code ++ ")"
  | e => toString e

def attempt (act : IO α) : IO (Except String α) := do
  try pure (.ok (← act)) catch e => pure (.error (reason e))

def randomUuid : IO Uuid := do
  let bytes := (← IO.getRandomBytes 16).toList
  let bytes := bytes.mapIdx fun i b =>
    if i = 6 then (b &&& 0x0f) ||| 0x40 else if i = 8 then (b &&& 0x3f) ||| 0x80 else b
  let hex (n : Nat) : Char := if n < 10 then Char.ofNat (48 + n) else Char.ofNat (87 + n)
  pure ⟨bytes.flatMap fun b => [hex (b.toNat / 16), hex (b.toNat % 16)]⟩

instance : Host IO where
  readFile path := do
    match ← attempt (IO.FS.Handle.mk path .read) with
    | .error e => pure (.error (.unopened e))
    | .ok h =>
      match ← attempt h.readToEnd with
      | .ok text => pure (.ok text)
      | .error e => pure (.error (.unread e))
  writeFile path text := attempt (IO.FS.writeFile path text)
  appendFile path text := attempt (IO.FS.withFile path .append fun h => h.putStr text)
  makeDirectories path := attempt (if path.isEmpty then pure () else IO.FS.createDirAll path)
  isPresent path := do
    match ← attempt (IO.FS.realPath path) with
    | .ok _ => pure true
    | .error _ => pure false
  out s := do
    let h ← IO.getStdout
    h.putStr s
    h.flush
  err s := do
    let h ← IO.getStderr
    h.putStr s
    h.flush
  now := do
    let nanos := (← Std.Time.Timestamp.now).toNanosecondsSinceUnixEpoch.val
    pure ⟨nanos / 1000000000, (nanos % 1000000000).toNat⟩
  freshId := randomUuid
  canonical path := do
    match ← attempt (IO.FS.realPath path) with
    | .ok p => pure p.toString
    | .error _ => pure path

end DenyPolicy.Machine

def main (args : List String) : IO UInt32 := do
  let status ← DenyPolicy.runCommandLine (m := IO) args
  pure status.toUInt32
