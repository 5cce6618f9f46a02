/-!
# Places in a YAML text, and faults of its syntax

A place in a text is its byte offset, its line and its column, the last two
counted from zero; messages count them from one.  A text that is not a
well-formed YAML stream is refused with a `Fault`: either a character that no
YAML text may hold, given by its byte offset, or a fault of the syntax, given by
the place where it was found and, when it arose inside some construct, that
construct and the place where it started.

A message names the problem, then its place unless that is the very start of
the text, then the construct, with its own place when that is neither the start
of the text nor the place of the problem.
-/

namespace DenyPolicy

namespace Yaml

/-- A place in a text: the bytes before it, and its line and column. -/
structure Mark where
  index : Nat := 0
  line : Nat := 0
  column : Nat := 0
  deriving Repr, DecidableEq, Inhabited

namespace Mark

/-- The place after a character of `width` bytes on the same line. -/
def next (m : Mark) (width : Nat) : Mark := { m with index := m.index + width, column := m.column + 1 }

def newline (m : Mark) (width : Nat) : Mark := ⟨m.index + width, m.line + 1, 0⟩

def isOrigin (m : Mark) : Bool := m.line == 0 && m.column == 0

def sameSpot (m n : Mark) : Bool := m.line == n.line && m.column == n.column

/-- A place as messages give it, counting lines and columns from one. -/
def render (m : Mark) : String :=
  "line " ++ toString (m.line + 1) ++ " column " ++ toString (m.column + 1)

end Mark

/-- Why a text is not a well-formed YAML stream. -/
inductive Fault where
  /-- A character that no YAML text may hold, at a byte offset. -/
  | character (problem : String) (offset : Nat)
  /-- A fault of the syntax at a place, found inside a construct that started at
  another place, if any. -/
  | malformed (problem : String) (place : Mark) (context : Option (String × Mark))
  deriving Repr, Inhabited

/-- The message of a fault. -/
def Fault.message : Fault → String
  | .character problem offset =>
    problem ++ (if offset = 0 then "" else " at position " ++ toString offset)
  | .malformed problem place context =>
    let head := problem ++ (if place.isOrigin then "" else " at " ++ place.render)
    match context with
    | none => head
    | some (what, start) =>
      head ++ ", " ++ what ++
        (if start.isOrigin || start.sameSpot place then "" else " at " ++ start.render)

end Yaml

end DenyPolicy
