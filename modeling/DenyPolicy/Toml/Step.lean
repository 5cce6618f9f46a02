/-!
# Steps of reading TOML

A TOML reader reads text front to back in steps.  A step either succeeds with a
result and the text after it, or fails.  A failure is a *miss* when another way
of reading the same text may still be tried, and *fatal* once the text has
committed the reader to one way: an alternative is tried only after a miss.

A failure gathers on its way out what the reader was reading (labels, such as
`integer`) and what would have been accepted (such as `digit`), innermost first,
and the fault beneath it if there is one (such as a value out of range).  Its
message names the innermost label, then all that was expected, then the fault,
each on a line of its own.
-/

namespace DenyPolicy
namespace Toml

/-- A failed step of reading. -/
structure Failure where
  /-- A fatal failure ends reading; a miss lets an alternative be tried. -/
  fatal : Bool := false
  /-- What was being read, innermost first. -/
  labels : List String := []
  /-- What would have been accepted, innermost first. -/
  expected : List String := []
  /-- The fault beneath, when there is more to say than that the text did not fit. -/
  cause : Option String := none
  /-- The text where reading stood. -/
  rest : List Char
  deriving Repr

namespace Failure

def miss (rest : List Char) : Failure := { rest }

def stop (rest : List Char) : Failure := { fatal := true, rest }

/-- The message: `invalid` and the innermost label, `expected` and all that was
expected, and the fault beneath, on lines of their own. -/
def message (f : Failure) : String :=
  let parts := (f.labels.head?.map ("invalid " ++ ·)).toList ++
    (if f.expected.isEmpty then [] else ["expected " ++ ", ".intercalate f.expected]) ++ f.cause.toList
  "\n".intercalate parts

end Failure

namespace Step

variable {α β : Type}

def label (l : String) (s : Except Failure (α × List Char)) : Except Failure (α × List Char) :=
  s.mapError fun f => { f with labels := f.labels ++ [l] }

def expect (e : String) (s : Except Failure (α × List Char)) : Except Failure (α × List Char) :=
  s.mapError fun f => { f with expected := f.expected ++ [e] }

def commit (s : Except Failure (α × List Char)) : Except Failure (α × List Char) :=
  s.mapError fun f => { f with fatal := true }

def mapResult (g : α → β) (s : Except Failure (α × List Char)) : Except Failure (β × List Char) :=
  s.map fun (a, r) => (g a, r)

/-- The first of two readings of `cs` that does not miss.  When both miss, the
second one's failure stands, at `cs`. -/
def orElse (cs : List Char) (p : Except Failure (α × List Char))
    (q : Unit → Except Failure (α × List Char)) : Except Failure (α × List Char) :=
  match p with
  | .error f =>
    if f.fatal then .error f
    else match q () with
      | .error g => .error (if g.fatal then g else { g with rest := cs })
      | ok => ok
  | ok => ok

def optional (cs : List Char) (p : Except Failure (α × List Char)) : Except Failure (Option α × List Char) :=
  match p with
  | .ok (a, r) => .ok (some a, r)
  | .error f => if f.fatal then .error f else .ok (none, cs)

end Step

def consumed (cs rest : List Char) : List Char := cs.take (cs.length - rest.length)

end Toml
end DenyPolicy
