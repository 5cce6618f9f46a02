import DenyPolicy.Audit.Event
import DenyPolicy.Schema.Text
import DenyPolicy.Hash.Sha256
import DenyPolicy.Text.Blank
/-!
# The audit hash chain

Each recorded event links to the SHA-256 of the stored line before it, and the
first to nothing, so that inserting, deleting or editing a line breaks the
chain where it happens.  A sink in memory and a log file chain alike.

A log file is read as its lines, split at line feeds with a carriage return
before the feed dropped, leaving out the lines that are blank.  Verifying a log
reads its lines in order and stops at the first that is no event or whose
link is not the hash of the line before; appending to a log links to the hash
of its last line and writes the new line after the existing text.
-/

namespace DenyPolicy

/-- Why a log cannot be read. -/
inductive AuditError where
  /-- A stored line is not an event, for the reason given. -/
  | serialization (reason : String)
  /-- The link of a line, counted from one among the non-blank lines, is not the hash
  of the line before it. -/
  | integrityViolation (line : Nat) (expected actual : String)
  deriving Repr, DecidableEq

/-- The text of an audit error. -/
def AuditError.message : AuditError → String
  | .serialization reason => "audit event serialization failed: " ++ reason
  | .integrityViolation n e a =>
    "hash chain broken at line " ++ toString n ++ ": expected previous hash " ++ e ++ ", found " ++ a

/-- The events recorded in memory and the hash of the last stored line. -/
structure MemorySink where
  events : List AuditEvent := []
  lastHash : Option String := none
  deriving Repr

def MemorySink.record (s : MemorySink) (e : AuditEvent) : AuditEvent × MemorySink :=
  let stored := { e with previousHash := s.lastHash }
  (stored, ⟨s.events ++ [stored], some (sha256Hex stored.line)⟩)

namespace AuditLog

def dropReturn (line : String) : String :=
  match line.toList.getLast? with
  | some '\r' => String.ofList line.toList.dropLast
  | _ => line

/-- The lines of a text: each line feed ends a line, together with a carriage
return just before it, and text after the last feed is a last line. -/
def splitLines (text : String) : List String :=
  let parts := (text.toList.splitOn '\n').map String.ofList
  match parts.getLast? with
  | some last =>
    let ended := parts.dropLast.map dropReturn
    if last.isEmpty then ended else ended ++ [last]
  | none => []

/-- The lines of a log's text that are not blank. -/
def lines (text : String) : List String :=
  (splitLines text).filter fun l => !Text.isBlankText l

/-- Reads one stored line as an event. -/
def readEvent (line : String) : Except AuditError AuditEvent :=
  match AuditEvent.schema.readTextOrMessage line with
  | .ok v => match AuditEvent.decode v with
    | .ok e => .ok e
    | .error _ => .error (.serialization "stored line is not an event")
  | .error reason => .error (.serialization reason)

/-- The hash of the last stored line of a log. -/
def lastHash (text : String) : Option String := (lines text).getLast?.map sha256Hex

/-- Checks the lines from the `index`-th on, where `previous` is the hash the next
link must equal; the answer counts the lines. -/
def verifyFrom (previous : Option String) (index : Nat) : List String → Except AuditError Nat
  | [] => .ok 0
  | l :: rest => do
    let e ← readEvent l
    if e.previousHash = previous then
      let n ← verifyFrom (some (sha256Hex l)) (index + 1) rest
      pure (n + 1)
    else .error (.integrityViolation index (previous.getD "none") (e.previousHash.getD "none"))

/-- The number of events of a log whose chain is intact. -/
def verify (text : String) : Except AuditError Nat := verifyFrom none 1 (lines text)

/-- Every event of a log. -/
def readAll (text : String) : Except AuditError (List AuditEvent) := (lines text).mapM readEvent

/-- The last `n` events of a log. -/
def tail (text : String) (n : Nat) : Except AuditError (List AuditEvent) := do
  let events ← readAll text
  pure (events.drop (events.length - n))

/-- A log opened for appending: its text and the hash the next line links to. -/
structure Writer where
  text : String
  lastHash : Option String

def open_ (text : String) : Writer := ⟨text, lastHash text⟩

def Writer.append (w : Writer) (e : AuditEvent) : AuditEvent × Writer :=
  let stored := { e with previousHash := w.lastHash }
  let line := stored.line
  (stored, ⟨w.text ++ line ++ "\n", some (sha256Hex line)⟩)

end AuditLog

end DenyPolicy
