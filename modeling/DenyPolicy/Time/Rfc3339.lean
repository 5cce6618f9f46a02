import DenyPolicy.Time.Instant
import DenyPolicy.Text.Blank
import DenyPolicy.Schema.Basic
/-!
# Reading RFC 3339 timestamps

Two readers of a date, a time of day and a UTC offset.

* `Instant.readRelaxed` is the one stored documents are read with.  It lets
  blanks stand before every number and around the separators, takes a year of
  up to four digits or a signed year of any length, months, days, hours,
  minutes and seconds of one or two digits, `T`, `t` or a space between date
  and time, a fraction of any length of which nine digits count, and as offset
  `Z`, `UTC` in any case, or a sign, two hour digits, optional `:` or blanks,
  and two minute digits.  Blanks may follow.
* `Instant.readStrict` is the one the command line takes its clock from:
  exactly `YYYY-MM-DD`, `T`, `t` or a space, `HH:MM:SS`, an optional fraction,
  and `Z`, `z` or `±HH:MM` within a day.  The date is checked against the
  calendar as soon as it is read, and the offset only after the text is known
  to end with it.

Both say why they fail: a field out of range, a wrong character, a text that
ends early, or text left over, whichever the fields read in order meet first;
last, a date and time in range whose instant in universal time is not.

Both then check the calendar: a month of 1 to 12, a day of that month, hours to
23, minutes to 59, seconds to 60 (a leap second) and an offset under a day.
-/

namespace DenyPolicy

namespace Time

def takeDigits (max : Nat) (cs : List Char) : List Char × List Char :=
  let ds := (cs.takeWhile Char.isDigit).take max
  (ds, cs.drop ds.length)

def digitValue (ds : List Char) : Nat := ds.foldl (fun n c => 10 * n + (c.toNat - 48)) 0

/-- The calendar fields that a reader found. -/
structure Stamp where
  year : Int
  month : Nat
  day : Nat
  hour : Nat
  minute : Nat
  second : Nat
  nanos : Nat
  offset : Int

def minYear : Int := -262143
def maxYear : Int := 262142

def inCalendar (t : Instant) : Bool :=
  let year := t.fields.1.year
  minYear ≤ year ∧ year ≤ maxYear

/-- Why a timestamp cannot be read. -/
inductive Fault where
  /-- A field, or the date and time as written, is outside its range. -/
  | outOfRange
  /-- The date and time as written are in range, but the instant they name in
  universal time is not. -/
  | impossible
  /-- A character stands where another is needed. -/
  | invalid
  /-- The text ends before the timestamp does. -/
  | tooShort
  /-- Text follows the timestamp. -/
  | tooLong
  deriving Repr, DecidableEq

/-- The text of a fault. -/
def Fault.message : Fault → String
  | .outOfRange => "input is out of range"
  | .impossible => "no possible date and time matching input"
  | .invalid => "input contains invalid characters"
  | .tooShort => "premature end of input"
  | .tooLong => "trailing input"

/-- The instant of checked calendar fields.  The date and time as written
must be a date and time of a year the calendar holds, and so must the instant
they name once the offset is taken off. -/
def Stamp.toInstant (s : Stamp) : Except Fault Instant :=
  let d : CivilDate := ⟨s.year, s.month, s.day⟩
  if minYear ≤ s.year ∧ s.year ≤ maxYear ∧ d.isValid ∧ s.hour ≤ 23 ∧ s.minute ≤ 59 ∧ s.second ≤ 60 ∧
      s.offset.natAbs < 86400 then
    let t :=
      if s.second = 60 then Instant.ofCivil d s.hour s.minute 59 (s.nanos + 1000000000) s.offset
      else Instant.ofCivil d s.hour s.minute s.second s.nanos s.offset
    if inCalendar t then .ok t else .error .impossible
  else .error .outOfRange

def byteCount (cs : List Char) : Nat := (String.ofList cs).utf8ByteSize

/-- Reads exactly `n` digits: a text of fewer than `n` bytes is too short, and
one whose first `n` characters are not all digits is invalid. -/
def exactDigits (n : Nat) (cs : List Char) : Except Fault (Nat × List Char) :=
  if byteCount cs < n then .error .tooShort
  else
    let ds := cs.take n
    if ds.length = n ∧ ds.all Char.isDigit then .ok (digitValue ds, cs.drop n) else .error .invalid

def expect (c : Char) : List Char → Except Fault (List Char)
  | d :: rest => if c = d then .ok rest else .error .invalid
  | [] => .error .tooShort

def inRange (lo hi v : Nat) : Except Fault Nat :=
  if lo ≤ v ∧ v ≤ hi then .ok v else .error .outOfRange

/-- Reads the fraction after a point: one to nine digits that count, and any more
that are skipped. -/
def strictFraction (cs : List Char) : Except Fault (Nat × List Char) :=
  match cs with
  | [] => .error .tooShort
  | c :: _ =>
    if c.isDigit then
      let (ds, rest) := takeDigits 9 cs
      .ok (digitValue ds * Nat.pow 10 (9 - ds.length), rest.dropWhile Char.isDigit)
    else .error .invalid

/-- Reads a strict offset: `Z`, `z`, or a sign (`+`, `-` or the minus sign), two
hour digits, `:` and two minute digits below 60, in seconds. -/
def strictOffset (cs : List Char) : Except Fault (Int × List Char) :=
  match cs with
  | 'Z' :: rest | 'z' :: rest => .ok (0, rest)
  | [] => .error .tooShort
  | c :: rest => do
    let negative ← if c = '+' then pure false else if c = '-' ∨ c = '−' then pure true else .error .invalid
    if byteCount rest < 2 then .error .tooShort
    let hours ← match rest with
      | h1 :: h2 :: _ => if h1.isDigit ∧ h2.isDigit then pure (digitValue [h1, h2]) else .error .invalid
      | _ => .error .invalid
    let rest ← expect ':' (rest.drop 2)
    if byteCount rest < 2 then .error .tooShort
    let minutes ← match rest with
      | m1 :: m2 :: _ =>
        if '0' ≤ m1 ∧ m1 ≤ '5' ∧ m2.isDigit then pure (digitValue [m1, m2])
        else if '6' ≤ m1 ∧ m1 ≤ '9' ∧ m2.isDigit then .error .outOfRange
        else .error .invalid
      | _ => .error .invalid
    let seconds : Int := hours * 3600 + minutes * 60
    pure (if negative then -seconds else seconds, rest.drop 2)

/-- The text without leading blanks. -/
def skipBlanks (cs : List Char) : List Char := cs.dropWhile Text.isBlank

/-- Reads `min` to `max` digits of a relaxed field: too short when fewer than
`min` bytes are left, invalid when fewer than `min` digits stand there. -/
def fieldDigits (min max : Nat) (cs : List Char) : Except Fault (Nat × List Char) :=
  if byteCount cs < min then .error .tooShort
  else
    let (ds, rest) := takeDigits max cs
    if ds.length < min then .error .invalid else .ok (digitValue ds, rest)

/-- Reads the year of a relaxed timestamp: up to four digits, or a sign and any
number of digits, within the signed 32-bit range. -/
def relaxedYear (cs : List Char) : Except Fault (Int × List Char) := do
  let cs := skipBlanks cs
  let (year, rest) ← match cs with
    | '-' :: rest => do
      let (n, r) ← fieldDigits 1 rest.length rest
      if Nat.pow 2 63 ≤ n then .error .outOfRange
      pure (-(n : Int), r)
    | '+' :: rest => do
      let (n, r) ← fieldDigits 1 rest.length rest
      if Nat.pow 2 63 ≤ n then .error .outOfRange
      pure ((n : Int), r)
    | _ => do
      let (n, r) ← fieldDigits 1 4 cs
      pure ((n : Int), r)
  if year < -Int.pow 2 31 ∨ Int.pow 2 31 ≤ year then .error .outOfRange
  pure (year, rest)

def startsWithUtc : List Char → Bool
  | u :: t :: c :: _ => (u = 'U' ∨ u = 'u') ∧ (t = 'T' ∨ t = 't') ∧ (c = 'C' ∨ c = 'c')
  | _ => false

/-- Reads the offset of a relaxed timestamp after blanks: `UTC` in any case, `Z`,
`z`, or a sign (`+`, `-` or the minus sign), two hour digits, any colons and
blanks, and two minute digits below 60, in seconds. -/
def relaxedOffset (cs : List Char) : Except Fault (Int × List Char) :=
  let cs := skipBlanks cs
  if startsWithUtc cs then .ok (0, cs.drop 3)
  else match cs with
    | 'Z' :: rest | 'z' :: rest => .ok (0, rest)
    | [] => .error .tooShort
    | c :: rest => do
      let negative ← if c = '+' then pure false else if c = '-' ∨ c = '−' then pure true else .error .invalid
      if byteCount rest < 2 then .error .tooShort
      let hours ← match rest with
        | h1 :: h2 :: _ => if h1.isDigit ∧ h2.isDigit then pure (digitValue [h1, h2]) else .error .invalid
        | _ => .error .invalid
      let rest := (rest.drop 2).dropWhile fun c => c = ':' ∨ Text.isBlank c
      if byteCount rest < 2 then .error .tooShort
      let minutes ← match rest with
        | m1 :: m2 :: _ =>
          if '0' ≤ m1 ∧ m1 ≤ '5' ∧ m2.isDigit then pure (digitValue [m1, m2])
          else if '6' ≤ m1 ∧ m1 ≤ '9' ∧ m2.isDigit then .error .outOfRange
          else .error .invalid
        | _ => .error .invalid
      let seconds : Int := hours * 3600 + minutes * 60
      pure (if negative then -seconds else seconds, rest.drop 2)

/-- Reads the calendar fields of a relaxed timestamp, each field checked against
its range as soon as it is read. -/
def relaxedStamp (cs : List Char) : Except Fault Stamp := do
  let (year, cs) ← relaxedYear cs
  let cs ← expect '-' (skipBlanks cs)
  let (month, cs) ← fieldDigits 1 2 (skipBlanks cs)
  let month ← inRange 1 12 month
  let cs ← expect '-' (skipBlanks cs)
  let (day, cs) ← fieldDigits 1 2 (skipBlanks cs)
  let day ← inRange 1 31 day
  let cs ← match cs with
    | c :: rest => if c = 'T' ∨ c = 't' ∨ c = ' ' then pure rest else .error .invalid
    | [] => .error .tooShort
  let (hour, cs) ← fieldDigits 1 2 (skipBlanks cs)
  let hour ← inRange 0 23 hour
  let cs ← expect ':' (skipBlanks cs)
  let (minute, cs) ← fieldDigits 1 2 (skipBlanks cs)
  let minute ← inRange 0 59 minute
  let cs ← expect ':' (skipBlanks cs)
  let (second, cs) ← fieldDigits 1 2 (skipBlanks cs)
  let second ← inRange 0 60 second
  let (nanos, cs) ← match cs with
    | '.' :: rest => strictFraction rest
    | _ => pure (0, cs)
  let (offset, cs) ← relaxedOffset cs
  if !(skipBlanks cs).isEmpty then .error .tooLong
  pure ⟨year, month, day, hour, minute, second, nanos, offset⟩

/-- Reads the calendar fields of a strict RFC 3339 timestamp, each field checked
against its range as soon as it is read.  A text shorter than a date and a time
without fraction or offset, nineteen bytes, ends too early before any field is
read. -/
def strictStamp (cs : List Char) : Except Fault Stamp := do
  if byteCount cs < 19 then .error .tooShort
  let (year, cs) ← exactDigits 4 cs
  let cs ← expect '-' cs
  let (month, cs) ← exactDigits 2 cs
  let month ← inRange 1 12 month
  let cs ← expect '-' cs
  let (day, cs) ← exactDigits 2 cs
  let day ← inRange 1 31 day
  if !(CivilDate.isValid ⟨year, month, day⟩) then .error .outOfRange
  let cs ← match cs with
    | c :: rest => if c = 'T' ∨ c = 't' ∨ c = ' ' then pure rest else .error .invalid
    | [] => .error .tooShort
  let (hour, cs) ← exactDigits 2 cs
  let hour ← inRange 0 23 hour
  let cs ← expect ':' cs
  let (minute, cs) ← exactDigits 2 cs
  let minute ← inRange 0 59 minute
  let cs ← expect ':' cs
  let (second, cs) ← exactDigits 2 cs
  let second ← inRange 0 60 second
  let (nanos, cs) ← match cs with
    | '.' :: rest => strictFraction rest
    | _ => pure (0, cs)
  let (offset, cs) ← strictOffset cs
  if !cs.isEmpty then .error .tooLong
  pure ⟨year, month, day, hour, minute, second, nanos, offset⟩

end Time

namespace Instant

/-- The instant of a timestamp in the relaxed form stored documents use, or why
there is none. -/
def readRelaxedOrFault (s : String) : Except Time.Fault Instant := do
  let stamp ← Time.relaxedStamp s.toList
  stamp.toInstant

def readRelaxed (s : String) : Option Instant := (readRelaxedOrFault s).toOption

def schema : Schema :=
  .parsed "an RFC 3339 formatted date and time string" fun s =>
    match readRelaxedOrFault s with
    | .ok _ => none
    | .error f => some f.message

/-- The instant of a strict RFC 3339 timestamp, or why there is none. -/
def readStrict (s : String) : Except Time.Fault Instant := do
  let stamp ← Time.strictStamp s.toList
  stamp.toInstant

end Instant

end DenyPolicy
