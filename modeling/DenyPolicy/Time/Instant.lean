/-!
# Instants

An instant in UTC as whole seconds since 1970-01-01T00:00:00Z and the
nanoseconds past them.  Nanoseconds reach up to two seconds so that a leap
second, written with a seconds field of 60, is the second 59 with a second of
nanoseconds added, as the calendar reader produces it; instants order by
seconds first, then nanoseconds.

Days convert to and from proleptic Gregorian dates by counting 400-year eras of
146097 days from 0000-03-01, which makes both directions exact for every year.
-/

namespace DenyPolicy

/-- A UTC instant. -/
structure Instant where
  seconds : Int
  nanos : Nat
  deriving Repr, DecidableEq, Inhabited

namespace Instant

/-- The zero of the clock, 1970-01-01T00:00:00Z. -/
def epoch : Instant := ⟨0, 0⟩

def lt (a b : Instant) : Prop := a.seconds < b.seconds ∨ (a.seconds = b.seconds ∧ a.nanos < b.nanos)

instance : LT Instant := ⟨lt⟩

instance (a b : Instant) : Decidable (a < b) :=
  inferInstanceAs (Decidable (a.seconds < b.seconds ∨ (a.seconds = b.seconds ∧ a.nanos < b.nanos)))

/-- The instant `b` is not before `a`. -/
instance : LE Instant := ⟨fun a b => ¬ b < a⟩

instance (a b : Instant) : Decidable (a ≤ b) := inferInstanceAs (Decidable (¬ b < a))

end Instant

/-- A proleptic Gregorian date. -/
structure CivilDate where
  year : Int
  month : Nat
  day : Nat
  deriving Repr, DecidableEq

namespace CivilDate

def isLeapYear (y : Int) : Bool := (y % 4 = 0 && y % 100 ≠ 0) || y % 400 = 0

def daysInMonth (y : Int) (m : Nat) : Nat :=
  match m with
  | 1 | 3 | 5 | 7 | 8 | 10 | 12 => 31
  | 4 | 6 | 9 | 11 => 30
  | 2 => if isLeapYear y then 29 else 28
  | _ => 0

def isValid (d : CivilDate) : Bool :=
  1 ≤ d.month && d.month ≤ 12 && 1 ≤ d.day && d.day ≤ daysInMonth d.year d.month

/-- Days from 1970-01-01 to the date. -/
def toDays (d : CivilDate) : Int :=
  let y : Int := if d.month ≤ 2 then d.year - 1 else d.year
  let era := y / 400
  let yoe := y - era * 400
  let mp : Int := if d.month > 2 then d.month - 3 else d.month + 9
  let doy := (153 * mp + 2) / 5 + d.day - 1
  let doe := yoe * 365 + yoe / 4 - yoe / 100 + doy
  era * 146097 + doe - 719468

/-- The date that lies `z` days after 1970-01-01. -/
def ofDays (z : Int) : CivilDate :=
  let z := z + 719468
  let era := z / 146097
  let doe := z - era * 146097
  let yoe := (doe - doe / 1460 + doe / 36524 - doe / 146096) / 365
  let doy := doe - (365 * yoe + yoe / 4 - yoe / 100)
  let mp := (5 * doy + 2) / 153
  let day := doy - (153 * mp + 2) / 5 + 1
  let month := if mp < 10 then mp + 3 else mp - 9
  let year := yoe + era * 400 + (if month ≤ 2 then 1 else 0)
  ⟨year, month.toNat, day.toNat⟩

end CivilDate

namespace Instant

def ofCivil (d : CivilDate) (hour minute second : Nat) (nanos : Nat) (offset : Int) : Instant :=
  ⟨d.toDays * 86400 + hour * 3600 + minute * 60 + second - offset, nanos⟩

def padded (width : Nat) (n : Nat) : String :=
  let s := toString n
  String.ofList (List.replicate (width - s.length) '0') ++ s

def yearText (y : Int) : String :=
  if 0 ≤ y ∧ y ≤ 9999 then padded 4 y.toNat
  else if y > 9999 then "+" ++ toString y
  else "-" ++ padded 4 y.natAbs

def fields (t : Instant) : CivilDate × Nat × Nat × Nat × Nat :=
  let days := t.seconds / 86400
  let secs := (t.seconds % 86400).toNat
  let leap := t.nanos ≥ 1000000000
  (CivilDate.ofDays days, secs / 3600, secs % 3600 / 60,
    secs % 60 + (if leap then 1 else 0), t.nanos % 1000000000)

/-- The fraction of a second as `.fff`, `.ffffff` or `.fffffffff`, the fewest of
these that are exact, and nothing for a whole second. -/
def fractionText (nanos : Nat) : String :=
  if nanos = 0 then ""
  else if nanos % 1000000 = 0 then "." ++ padded 3 (nanos / 1000000)
  else if nanos % 1000 = 0 then "." ++ padded 6 (nanos / 1000)
  else "." ++ padded 9 nanos

def dateTimeText (t : Instant) (sep : String) : String :=
  let (d, h, m, s, _) := t.fields
  yearText d.year ++ "-" ++ padded 2 d.month ++ "-" ++ padded 2 d.day ++ sep ++
    padded 2 h ++ ":" ++ padded 2 m ++ ":" ++ padded 2 s

/-- The RFC 3339 text of an instant in UTC, ending in `Z`. -/
def render (t : Instant) : String :=
  dateTimeText t "T" ++ fractionText (t.nanos % 1000000000) ++ "Z"

end Instant

end DenyPolicy
