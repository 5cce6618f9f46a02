import DenyPolicy.Schema.Value
import DenyPolicy.Json.Read
/-!
# Reading JSON text against a schema

A typed reading of JSON text goes through the text once, from the front, and
checks each value against its schema as it reads it.  The first fault in the
text, whether the text is not JSON or a value does not fit, is the answer, and
it says where: a line counted from one, and a column that counts the bytes
before the fault on its line.

Where a fault is placed follows from how far the reader has come:

* a value of the wrong kind is read whole first, and the fault stands after
  it, except an array or object, where it stands before the bracket;
* a name, number or text that a member rejects stands after the token;
* a missing member, a repeated member, or a record written as an array that is
  too short stands after the closing brace or bracket of its record;
* a fault of the text itself, such as a missing comma, stands just past the
  character that shows it, and a premature end at the end.

Members that a record does not know are skipped by a looser reader, which
checks only the shape of numbers, strings and nesting.  Arrays and objects nest
at most 127 deep, and only blanks may follow the document.
-/

namespace DenyPolicy

namespace JsonText

/-- What is wrong with JSON text. -/
inductive Flaw where
  | eofInList
  | eofInObject
  | eofInString
  | eofInValue
  | expectedColon
  | expectedListCommaOrEnd
  | expectedObjectCommaOrEnd
  | expectedIdent
  | expectedValue
  | invalidEscape
  | invalidNumber
  | numberOutOfRange
  | controlInString
  | keyMustBeString
  | loneSurrogate
  | unexpectedEndOfHexEscape
  | trailingComma
  | trailingCharacters
  | recursionLimit
  deriving Repr, DecidableEq, Inhabited

/-- The text of a flaw. -/
def Flaw.message : Flaw → String
  | .eofInList => "EOF while parsing a list"
  | .eofInObject => "EOF while parsing an object"
  | .eofInString => "EOF while parsing a string"
  | .eofInValue => "EOF while parsing a value"
  | .expectedColon => "expected `:`"
  | .expectedListCommaOrEnd => "expected `,` or `]`"
  | .expectedObjectCommaOrEnd => "expected `,` or `\x7d`"
  | .expectedIdent => "expected ident"
  | .expectedValue => "expected value"
  | .invalidEscape => "invalid escape"
  | .invalidNumber => "invalid number"
  | .numberOutOfRange => "number out of range"
  | .controlInString => "control character (\\u0000-\\u001F) found while parsing a string"
  | .keyMustBeString => "key must be a string"
  | .loneSurrogate => "lone leading surrogate in hex escape"
  | .unexpectedEndOfHexEscape => "unexpected end of hex escape"
  | .trailingComma => "trailing comma"
  | .trailingCharacters => "trailing characters"
  | .recursionLimit => "recursion limit exceeded"

/-- Why a typed reading of text failed. -/
inductive Problem where
  | flaw (f : Flaw)
  | mismatch (m : Mismatch)
  deriving Repr, Inhabited

/-- A fault and where it stands: `ahead` bytes into the text `rest` that is
left. -/
structure Fault where
  problem : Problem
  rest : List Char
  ahead : Nat
  deriving Repr, Inhabited

def flawHere (f : Flaw) (rest : List Char) : Except Fault α := .error ⟨.flaw f, rest, 0⟩

def flawAhead (f : Flaw) (rest : List Char) : Except Fault α := .error ⟨.flaw f, rest, 1⟩

def mismatchHere (m : Mismatch) (rest : List Char) : Except Fault α := .error ⟨.mismatch m, rest, 0⟩

/-- The characters of `cs` that lie wholly within its first `n` bytes, and how
many bytes of the next character those bytes reach into. -/
def withinBytes (n : Nat) : List Char → List Char × Nat
  | [] => ([], 0)
  | c :: cs =>
    if c.utf8Size ≤ n then
      let (inside, part) := withinBytes (n - c.utf8Size) cs
      (c :: inside, part)
    else ([], n)

def Fault.position (text : List Char) (f : Fault) : Nat × Nat :=
  let (inside, part) := withinBytes f.ahead f.rest
  let consumed := text.take (text.length - f.rest.length) ++ inside
  let line := consumed.count '\n' + 1
  let column := (String.ofList (consumed.reverse.takeWhile (· ≠ '\n')).reverse).utf8ByteSize
  (line, column + part)

/-- The message of a fault in `text`, with its place. -/
def Fault.render (text : List Char) (f : Fault) : String :=
  let what := match f.problem with
    | .flaw fl => fl.message
    | .mismatch m => m.message .json
  let (line, column) := f.position text
  what ++ " at line " ++ toString line ++ " column " ++ toString column

def isBlank (c : Char) : Bool := c = ' ' || c = '\n' || c = '\t' || c = '\r'

/-- The text after its leading blanks. -/
def skipBlanks (cs : List Char) : List Char := cs.dropWhile isBlank

def ident : List Char → List Char → Except Fault (List Char)
  | [], cs => .ok cs
  | _ :: _, [] => flawHere .eofInValue []
  | w :: ws, c :: rest => if c = w then ident ws rest else flawHere .expectedIdent rest

def overflowAt (acc k : Nat) : List Char → Option Nat
  | [] => none
  | d :: ds =>
    let v := 10 * acc + (d.toNat - 48)
    if v > Json.i32Max then some (k + 1) else overflowAt v (k + 1) ds

/-- Reads the integer digits of a number: a lone zero, or digits that do not
start with zero. -/
def scanWhole (cs : List Char) : Except Fault (List Char × List Char) :=
  match cs with
  | [] => flawHere .eofInValue []
  | '0' :: rest =>
    match rest with
    | d :: _ => if d.isDigit then flawAhead .invalidNumber rest else pure (['0'], rest)
    | [] => pure (['0'], [])
  | c :: rest =>
    if '1' ≤ c ∧ c ≤ '9' then pure (c :: rest.takeWhile Char.isDigit, rest.dropWhile Char.isDigit)
    else flawHere .invalidNumber rest

/-- Reads the fraction of a number when a point is next: at least one digit. -/
def scanFraction (cs : List Char) : Except Fault (List Char × List Char) :=
  match cs with
  | '.' :: more =>
    let ds := more.takeWhile Char.isDigit
    if ds.isEmpty then
      match more with
      | [] => flawAhead .eofInValue []
      | _ => flawAhead .invalidNumber more
    else pure (ds, more.drop ds.length)
  | _ => pure ([], cs)

/-- Reads the exponent of a number when an `e` is next: an optional sign and at
least one digit. -/
def scanExponent (cs : List Char) : Except Fault (Option (Bool × List Char) × List Char) :=
  match cs with
  | e :: more =>
    if e = 'e' ∨ e = 'E' then
      let (positive, more) := match more with
        | '+' :: m => (true, m)
        | '-' :: m => (false, m)
        | m => (true, m)
      match more with
      | [] => flawHere .eofInValue []
      | c :: after =>
        if c.isDigit then
          let ds := c :: after.takeWhile Char.isDigit
          pure (some (positive, ds), more.drop ds.length)
        else flawHere .invalidNumber after
    else pure (none, cs)
  | [] => pure (none, [])

/-- Reads a number after its sign: integer digits without a leading zero, an
optional fraction of at least one digit, and an optional exponent. -/
def scanNumber (negative : Bool) (cs : List Char) : Except Fault (Numeral × List Char) := do
  let (whole, rest) ← scanWhole cs
  let (frac, rest) ← scanFraction rest
  let (exponent, rest) ← scanExponent rest
  match Json.classifyNumber negative whole frac exponent with
  | .ok n => pure (n, rest)
  | .error _ =>
    match exponent with
    | some (true, ds) =>
      match overflowAt 0 0 ds with
      | some k => flawHere .numberOutOfRange (ds.drop k ++ rest)
      | none => flawHere .numberOutOfRange rest
    | _ => flawHere .numberOutOfRange rest

def bytesLeft (n : Nat) : List Char → Bool
  | [] => n == 0
  | c :: cs => n ≤ c.utf8Size || bytesLeft (n - c.utf8Size) cs

/-- Reads the four bytes after `\u` as hexadecimal digits.  With fewer than four
bytes left the text ends early; four bytes that are not all digits are an
invalid escape, which stands after them. -/
def hexEscape (cs : List Char) : Except Fault (Nat × List Char) :=
  if !bytesLeft 4 cs then flawHere .eofInString []
  else match cs with
    | a :: b :: c :: d :: after =>
      match Json.hex4? a b c d with
      | some n => .ok (n, after)
      | none => .error ⟨.flaw .invalidEscape, cs, 4⟩
    | _ => .error ⟨.flaw .invalidEscape, cs, 4⟩

/-- Reads the rest of a `\u` escape: a code point, or a surrogate pair written as
two escapes. -/
def unicodeEscape (cs : List Char) : Except Fault (Char × List Char) :=
  match hexEscape cs with
  | .error f => .error f
  | .ok (n, after) =>
      if 0xDC00 ≤ n ∧ n ≤ 0xDFFF then flawHere .loneSurrogate after
      else if n < 0xD800 ∨ 0xDBFF < n then .ok (Char.ofNat n, after)
      else match after with
        | [] => flawHere .eofInString []
        | '\\' :: after2 =>
          match after2 with
          | [] => flawHere .eofInString []
          | 'u' :: after3 =>
            match hexEscape after3 with
            | .error f => .error f
            | .ok (m, after4) =>
              if m < 0xDC00 ∨ 0xDFFF < m then flawHere .loneSurrogate after4
              else .ok (Char.ofNat (0x10000 + (n - 0xD800) * 0x400 + (m - 0xDC00)), after4)
          | other => flawAhead .unexpectedEndOfHexEscape other
        | other => flawAhead .unexpectedEndOfHexEscape other

def shortEscape? (c : Char) : Option Char :=
  if c = '"' then some '"' else if c = '\\' then some '\\' else if c = '/' then some '/'
  else if c = 'b' then some (Char.ofNat 8) else if c = 'f' then some (Char.ofNat 12)
  else if c = 'n' then some '\n' else if c = 'r' then some '\r' else if c = 't' then some '\t'
  else none

/-- Reads the rest of a string after its opening quote; `acc` holds the
characters read, last first. -/
def scanStringFrom : Nat → List Char → List Char → Except Fault (String × List Char)
  | 0, _, cs => flawHere .eofInString cs
  | _ + 1, _, [] => flawHere .eofInString []
  | _ + 1, acc, '"' :: rest => .ok (String.ofList acc.reverse, rest)
  | fuel + 1, acc, '\\' :: rest =>
    match rest with
    | [] => flawHere .eofInString []
    | 'u' :: more => do
      let (c, after) ← unicodeEscape more
      scanStringFrom fuel (c :: acc) after
    | e :: more =>
      match shortEscape? e with
      | some c => scanStringFrom fuel (c :: acc) more
      | none => flawAhead .invalidEscape (e :: more)
  | fuel + 1, acc, c :: rest =>
    if c.toNat < 0x20 then flawHere .controlInString rest else scanStringFrom fuel (c :: acc) rest

def scanString (cs : List Char) : Except Fault (String × List Char) := scanStringFrom (cs.length + 1) [] cs

/-- Skips the rest of a string after its opening quote, checking its escapes
but not the code points they name. -/
def skipString : Nat → List Char → Except Fault (List Char)
  | 0, cs => flawHere .eofInString cs
  | _ + 1, [] => flawHere .eofInString []
  | _ + 1, '"' :: rest => .ok rest
  | fuel + 1, '\\' :: rest =>
    match rest with
    | [] => flawHere .eofInString []
    | 'u' :: more =>
      match hexEscape more with
      | .error f => .error f
      | .ok (_, after) => skipString fuel after
    | e :: more =>
      if (shortEscape? e).isSome then skipString fuel more else flawAhead .invalidEscape (e :: more)
  | fuel + 1, c :: rest =>
    if c.toNat < 0x20 then flawHere .controlInString (c :: rest) else skipString fuel rest

/-- Skips the exponent of a number whose `e` is next. -/
def skipExponent (cs : List Char) : Except Fault (List Char) :=
  let more := match cs.drop 1 with
    | '+' :: m | '-' :: m => m
    | m => m
  match more with
  | c :: after => if c.isDigit then .ok (after.dropWhile Char.isDigit) else flawHere .invalidNumber after
  | [] => flawHere .invalidNumber []

/-- Skips the fraction and exponent of a number, when they are next. -/
def skipFraction (cs : List Char) : Except Fault (List Char) :=
  match cs with
  | '.' :: more =>
    let ds := more.takeWhile Char.isDigit
    if ds.isEmpty then flawAhead .invalidNumber more
    else
      let after := more.drop ds.length
      match after with
      | e :: _ => if e = 'e' ∨ e = 'E' then skipExponent after else .ok after
      | [] => .ok []
  | e :: _ => if e = 'e' ∨ e = 'E' then skipExponent cs else .ok cs
  | [] => .ok []

/-- Skips a number after its sign, checking only its shape. -/
def skipNumber (cs : List Char) : Except Fault (List Char) :=
  match cs with
  | '0' :: rest =>
    match rest with
    | d :: _ => if d.isDigit then flawAhead .invalidNumber rest else skipFraction rest
    | [] => .ok []
  | c :: rest =>
    if '1' ≤ c ∧ c ≤ '9' then skipFraction (rest.dropWhile Char.isDigit) else flawHere .invalidNumber rest
  | [] => flawHere .invalidNumber []

def colon (cs : List Char) : Except Fault (List Char) :=
  match skipBlanks cs with
  | ':' :: rest => .ok rest
  | [] => flawAhead .eofInObject []
  | b => flawAhead .expectedColon b

/-- What follows in an array or an object: its end, or another item. -/
inductive Next where
  /-- The closing bracket or brace, with the text after it. -/
  | done (after : List Char)
  /-- Another item, starting here. -/
  | more (start : List Char)

/-- What follows in an array, after blanks and, past the first item, a comma. -/
def nextItem (first : Bool) (cs : List Char) : Except Fault Next :=
  let b := skipBlanks cs
  match b with
  | [] => flawAhead .eofInList []
  | ']' :: after => .ok (.done after)
  | ',' :: r =>
    if first then .ok (.more b)
    else
      let b2 := skipBlanks r
      match b2 with
      | ']' :: _ => flawAhead .trailingComma b2
      | [] => flawAhead .eofInValue []
      | _ => .ok (.more b2)
  | _ => if first then .ok (.more b) else flawAhead .expectedListCommaOrEnd b

/-- What follows in an object, after blanks and, past the first member, a comma:
its end, or a key, starting after its opening quote. -/
def nextKey (first : Bool) (cs : List Char) : Except Fault Next :=
  let b := skipBlanks cs
  match b with
  | [] => flawAhead .eofInObject []
  | '}' :: after => .ok (.done after)
  | '"' :: r => if first then .ok (.more r) else flawAhead .expectedObjectCommaOrEnd b
  | ',' :: r =>
    if first then flawAhead .keyMustBeString b
    else
      let b2 := skipBlanks r
      match b2 with
      | '"' :: r3 => .ok (.more r3)
      | '}' :: _ => flawAhead .trailingComma b2
      | [] => flawAhead .eofInValue []
      | _ => flawAhead .keyMustBeString b2
  | _ => if first then flawAhead .keyMustBeString b else flawAhead .expectedObjectCommaOrEnd b

/-- After the last member of a record written as an array: the closing bracket,
or the fault of what stands there instead. -/
def closeArray (cs : List Char) : Except Fault (List Char) :=
  let b := skipBlanks cs
  match b with
  | ']' :: r => .ok r
  | ',' :: r =>
    let b2 := skipBlanks r
    match b2 with
    | ']' :: _ => flawAhead .trailingComma b2
    | _ => flawAhead .trailingCharacters b2
  | [] => flawAhead .eofInList []
  | _ => flawAhead .trailingCharacters b

/-- Where a reader stands once it has tried to close an array that a record was
read from, whether or not the closing bracket is there. -/
def pastArray (cs : List Char) : List Char :=
  match skipBlanks cs with
  | ']' :: r => r
  | ',' :: r => skipBlanks r
  | b => b

def pastObject (cs : List Char) : List Char :=
  match skipBlanks cs with
  | '}' :: r => r
  | b => b

/-- The fault of a value of the wrong kind where `expected` was wanted: the value
is read whole, and the fault stands after it, or before an array or object. -/
def wrongKind (expected : String) (b : List Char) : Except Fault (Json × List Char) :=
  match b with
  | 'n' :: r => do let r ← ident "ull".toList r; mismatchHere (.invalidType .unit expected) r
  | 't' :: r => do let r ← ident "rue".toList r; mismatchHere (.invalidType (.flag true) expected) r
  | 'f' :: r => do let r ← ident "alse".toList r; mismatchHere (.invalidType (.flag false) expected) r
  | '-' :: r => do
    let (n, r) ← scanNumber true r
    mismatchHere (.invalidType (Found.ofNumeral n) expected) r
  | '"' :: r => do
    let (s, r) ← scanString r
    mismatchHere (.invalidType (.text s) expected) r
  | '[' :: _ => mismatchHere (.invalidType .sequence expected) b
  | '{' :: _ => mismatchHere (.invalidType .map expected) b
  | c :: _ =>
    if c.isDigit then do
      let (n, r) ← scanNumber false b
      mismatchHere (.invalidType (Found.ofNumeral n) expected) r
    else flawAhead .expectedValue b
  | [] => flawAhead .expectedValue []

def unsignedValue (width : Nat) (name : String) (n : Numeral) (rest : List Char) : Except Fault (Json × List Char) :=
  match n with
  | .nat k => if k < Nat.pow 2 width then .ok (.num (.nat k), rest) else mismatchHere (.invalidValue (.unsigned k) name) rest
  | .negInt k => mismatchHere (.invalidValue (.signed (-(k : Int))) name) rest
  | .float negative v => mismatchHere (.invalidType (.float negative v) name) rest

def maxDepth : Nat := 127

mutual
/-- Skips one value of any shape, checking only its syntax. -/
def skipValue : Nat → List Char → Except Fault (List Char)
  | 0, cs => flawHere .recursionLimit cs
  | fuel + 1, cs =>
    let b := skipBlanks cs
    match b with
    | [] => flawAhead .eofInValue []
    | 'n' :: r => ident "ull".toList r
    | 't' :: r => ident "rue".toList r
    | 'f' :: r => ident "alse".toList r
    | '-' :: r => skipNumber r
    | '"' :: r => skipString (r.length + 1) r
    | '[' :: r => skipItems fuel true r
    | '{' :: r => skipFields fuel true r
    | c :: _ => if c.isDigit then skipNumber b else flawAhead .expectedValue b

/-- Skips the rest of an array. -/
def skipItems : Nat → Bool → List Char → Except Fault (List Char)
  | 0, _, cs => flawHere .recursionLimit cs
  | fuel + 1, first, cs =>
    let b := skipBlanks cs
    match b with
    | ']' :: r => .ok r
    | [] => flawAhead .eofInList []
    | ',' :: r =>
      if first then do let r ← skipValue fuel b; skipItems fuel false r
      else do let r ← skipValue fuel r; skipItems fuel false r
    | _ =>
      if first then do let r ← skipValue fuel b; skipItems fuel false r
      else flawAhead .expectedListCommaOrEnd b

/-- Skips the rest of an object. -/
def skipFields : Nat → Bool → List Char → Except Fault (List Char)
  | 0, _, cs => flawHere .recursionLimit cs
  | fuel + 1, first, cs =>
    let b := skipBlanks cs
    match b with
    | '}' :: r => .ok r
    | [] => flawAhead .eofInObject []
    | ',' :: r => if first then skipField fuel b else skipField fuel r
    | _ => if first then skipField fuel b else flawAhead .expectedObjectCommaOrEnd b

/-- Skips one member of an object and the members after it. -/
def skipField : Nat → List Char → Except Fault (List Char)
  | 0, cs => flawHere .recursionLimit cs
  | fuel + 1, cs =>
    let b := skipBlanks cs
    match b with
    | '"' :: r => do
      let r ← skipString (r.length + 1) r
      let r ← colon r
      let r ← skipValue fuel r
      skipFields fuel false r
    | [] => flawAhead .eofInObject []
    | _ => flawAhead .keyMustBeString b
end

/-- Reads a choice written as an object of one member, from its name to `null`,
after the opening brace. -/
def readChoiceMap (names : List String) (aliases : List (String × String)) (cs : List Char) : Except Fault (Json × List Char) := do
  let b := skipBlanks cs
  let (name, r) ← match b with
    | '"' :: r => scanString r
    | [] => flawAhead .eofInValue []
    | _ => do let (_, r) ← wrongKind "variant identifier" b; pure ("", r)
  match Schema.choose names aliases name with
  | none => mismatchHere (.unknownVariant name (Schema.acceptedNames names aliases)) r
  | some c => do
    let r ← colon r
    let b := skipBlanks r
    let r ← match b with
      | 'n' :: r => ident "ull".toList r
      | [] => flawAhead .eofInValue []
      | _ => do let (_, r) ← wrongKind "unit" b; pure r
    match skipBlanks r with
    | '}' :: r => pure (.str c, r)
    | [] => flawHere .eofInObject []
    | b => flawHere .expectedValue b

mutual
/-- Reads one value against a schema. -/
def readAs : Nat → Nat → Schema → List Char → Except Fault (Json × List Char)
  | 0, _, _, cs => flawHere .recursionLimit cs
  | fuel + 1, depth, s, cs =>
    let b := skipBlanks cs
    match s, b with
    | _, [] => flawAhead .eofInValue []
    | .optional _, 'n' :: r => do let r ← ident "ull".toList r; pure (.null, r)
    | .optional s, _ => readAs fuel depth s b
    | .text, '"' :: r => do let (t, r) ← scanString r; pure (.str t, r)
    | .flag, 't' :: r => do let r ← ident "rue".toList r; pure (.bool true, r)
    | .flag, 'f' :: r => do let r ← ident "alse".toList r; pure (.bool false, r)
    | .unsigned width name, '-' :: r => do
      let (n, r) ← scanNumber true r
      unsignedValue width name n r
    | .unsigned width name, c :: _ =>
      if c.isDigit then do
        let (n, r) ← scanNumber false b
        unsignedValue width name n r
      else wrongKind name b
    | .list s, '[' :: r =>
      if maxDepth ≤ depth then flawAhead .recursionLimit b
      else do
        let (xs, r) ← readItems fuel (depth + 1) s true [] r
        pure (.arr xs, r)
    | .dictionary s, '{' :: r =>
      if maxDepth ≤ depth then flawAhead .recursionLimit b
      else do
        let (fs, r) ← readEntries fuel (depth + 1) s true [] r
        pure ((Json.obj fs).normalize, r)
    | .choice names aliases, '"' :: r => do
      let (t, r) ← scanString r
      match Schema.choose names aliases t with
      | some c => pure (.str c, r)
      | none => mismatchHere (.unknownVariant t (Schema.acceptedNames names aliases)) r
    | .choice names aliases, '{' :: r =>
      if maxDepth ≤ depth then flawAhead .recursionLimit b
      else readChoiceMap names aliases r
    | .choice _ _, _ => flawAhead .expectedValue b
    | .record name members, '[' :: r =>
      if maxDepth ≤ depth then flawAhead .recursionLimit b
      else readPlaces fuel (depth + 1) name members.length members 0 true [] r
    | .record _ members, '{' :: r =>
      if maxDepth ≤ depth then flawAhead .recursionLimit b
      else readMembers fuel (depth + 1) members true [] r
    | .tagged _ tag kinds, '{' :: r =>
      if maxDepth ≤ depth then flawAhead .recursionLimit b
      else readTagged fuel (depth + 1) tag kinds true [] none r
    | .tagged name tag kinds, '[' :: r =>
      if maxDepth ≤ depth then flawAhead .recursionLimit b
      else readTaggedItems fuel (depth + 1) name tag kinds r
    | .anything, _ => readAny fuel depth b
    | .parsed _ accept, '"' :: r => do
      let (t, r) ← scanString r
      match accept t with
      | some reason => mismatchHere (.custom reason) r
      | none => pure (.str t, r)
    | s, _ => wrongKind s.expecting b

/-- Reads a value of any shape. -/
def readAny : Nat → Nat → List Char → Except Fault (Json × List Char)
  | 0, _, cs => flawHere .recursionLimit cs
  | fuel + 1, depth, cs =>
    let b := skipBlanks cs
    match b with
    | [] => flawAhead .eofInValue []
    | 'n' :: r => do let r ← ident "ull".toList r; pure (.null, r)
    | 't' :: r => do let r ← ident "rue".toList r; pure (.bool true, r)
    | 'f' :: r => do let r ← ident "alse".toList r; pure (.bool false, r)
    | '-' :: r => do let (n, r) ← scanNumber true r; pure (.num n, r)
    | '"' :: r => do let (t, r) ← scanString r; pure (.str t, r)
    | '[' :: r =>
      if maxDepth ≤ depth then flawAhead .recursionLimit b
      else do
        let (xs, r) ← readItems fuel (depth + 1) .anything true [] r
        pure (.arr xs, r)
    | '{' :: r =>
      if maxDepth ≤ depth then flawAhead .recursionLimit b
      else do
        let (fs, r) ← readEntries fuel (depth + 1) .anything true [] r
        pure ((Json.obj fs).normalize, r)
    | c :: _ =>
      if c.isDigit then do let (n, r) ← scanNumber false b; pure (.num n, r)
      else flawAhead .expectedValue b

/-- Reads the items of an array against a schema, up to its closing bracket. -/
def readItems : Nat → Nat → Schema → Bool → List Json → List Char → Except Fault ((List Json) × List Char)
  | 0, _, _, _, _, cs => flawHere .recursionLimit cs
  | fuel + 1, depth, s, first, acc, cs => do
    match ← nextItem first cs with
    | .done after => pure (acc.reverse, after)
    | .more start =>
      let (v, r) ← readAs fuel depth s start
      readItems fuel depth s false (v :: acc) r

/-- Reads the members of an object against a schema for each value, up to its
closing brace. -/
def readEntries : Nat → Nat → Schema → Bool → List (String × Json) → List Char →
    Except Fault ((List (String × Json)) × List Char)
  | 0, _, _, _, _, cs => flawHere .recursionLimit cs
  | fuel + 1, depth, s, first, acc, cs => do
    match ← nextKey first cs with
    | .done after => pure (acc.reverse, after)
    | .more start =>
      let (k, r) ← scanString start
      let r ← colon r
      let (v, r) ← readAs fuel depth s r
      readEntries fuel depth s false ((k, v) :: acc) r

/-- Reads the members of a record written as an object, up to its closing brace;
`found` holds the members read, last first. -/
def readMembers : Nat → Nat → Members → Bool → List (String × Json) → List Char → Except Fault (Json × List Char)
  | 0, _, _, _, _, cs => flawHere .recursionLimit cs
  | fuel + 1, depth, members, first, found, cs => do
    match ← nextKey first cs with
    | .done after =>
      match Schema.absentMembers (found.map (·.1)) members with
      | .ok absent => pure (.obj (Schema.inOrder members (found ++ absent)), after)
      | .error m => mismatchHere m after
    | .more start =>
      let (k, r) ← scanString start
      match Schema.memberNamed members k with
      | some (_, s) =>
        if (found.map (·.1)).contains k then mismatchHere (.duplicateField k) (pastObject r)
        else do
          let r ← colon r
          let (v, r) ← readAs fuel depth s r
          readMembers fuel depth members false ((k, v) :: found) r
      | none => do
        let r ← colon r
        let r ← skipValue fuel r
        readMembers fuel depth members false found r

/-- Reads the members of a record written as an array, in declaration order from
place `i`; `total` is the number of members of the record. -/
def readPlaces : Nat → Nat → String → Nat → Members → Nat → Bool → List (String × Json) →
    List Char → Except Fault (Json × List Char)
  | 0, _, _, _, _, _, _, _, cs => flawHere .recursionLimit cs
  | _ + 1, _, _, _, [], _, _, found, cs => do
    let r ← closeArray cs
    pure (.obj found.reverse, r)
  | fuel + 1, depth, name, total, (member, presence, s) :: members, i, first, found, cs => do
    match ← nextItem first cs with
    | .more start =>
      let (v, r) ← readAs fuel depth s start
      readPlaces fuel depth name total members (i + 1) false ((member, v) :: found) r
    | .done _ =>
      if presence = .defaulted then readPlaces fuel depth name total members (i + 1) first found cs
      else mismatchHere (.invalidLength i (Schema.positional name total)) (pastArray cs)

/-- Reads a record whose member `tag` names its kind: the other members are set
aside as they are, then checked against the members of that kind once the
object is closed. -/
def readTagged : Nat → Nat → String → List (String × Members) → Bool → List (Yaml × Yaml) →
    Option String → List Char → Except Fault (Json × List Char)
  | 0, _, _, _, _, _, _, cs => flawHere .recursionLimit cs
  | fuel + 1, depth, tag, kinds, first, aside, kind, cs => do
    match ← nextKey first cs with
    | .done after =>
      match kind with
      | none => mismatchHere (.missingField tag) after
      | some k =>
        match kinds.lookup k with
        | none => mismatchHere (.unknownVariant k (kinds.map (·.1))) after
        | some members =>
          match Schema.checkRecord (ValueRules.content .json) (fuel + 1) members aside.reverse with
          | .ok (.obj fs) => pure (.obj ((tag, .str k) :: fs), after)
          | .ok v => pure (v, after)
          | .error m => mismatchHere m after
    | .more start =>
      let (key, r) ← scanString start
      if key = tag then
        if kind.isSome then mismatchHere (.duplicateField tag) (pastObject r)
        else do
          let r ← colon r
          let b := skipBlanks r
          match b with
          | '"' :: r' =>
            let (t, r') ← scanString r'
            if (kinds.map (·.1)).contains t then readTagged fuel depth tag kinds false aside (some t) r'
            else mismatchHere (.unknownVariant t (kinds.map (·.1))) r'
          | [] => flawAhead .eofInValue []
          | _ => wrongKind "variant identifier" b
      else do
        let r ← colon r
        let (v, r) ← readAny fuel depth r
        readTagged fuel depth tag kinds false ((.str key, v.asDocument) :: aside) kind r


/-- Reads a record whose kind is named by a tag, written as an array after its
opening bracket: the tag first, then the members of that kind in declaration
order, read as they are and checked once the array is closed. -/
def readTaggedItems : Nat → Nat → String → String → List (String × Members) → List Char →
    Except Fault (Json × List Char)
  | 0, _, _, _, _, cs => flawHere .recursionLimit cs
  | fuel + 1, depth, name, tag, kinds, cs => do
    match ← nextItem true cs with
    | .done after => mismatchHere (.missingField tag) after
    | .more start =>
      let b := skipBlanks start
      match b with
      | '"' :: r =>
        let (k, r) ← scanString r
        match kinds.lookup k with
        | none => mismatchHere (.unknownVariant k (kinds.map (·.1))) r
        | some members =>
          let (items, after) ← readItems fuel depth .anything false [] r
          match Schema.checkPositional (ValueRules.content .json) (fuel + 1)
              ("variant " ++ name ++ "::" ++ Schema.variantName k) members (items.map Json.asDocument) with
          | .ok (.obj fs) => pure (.obj ((tag, .str k) :: fs), after)
          | .ok v => pure (v, after)
          | .error m => mismatchHere m after
      | [] => flawAhead .eofInValue []
      | _ => wrongKind "variant identifier" b
end

end JsonText

def Schema.readText (s : Schema) (text : String) : Except JsonText.Fault Json := do
  let cs := text.toList
  let (v, rest) ← JsonText.readAs (2 * cs.length + 64) 0 s cs
  match JsonText.skipBlanks rest with
  | [] => pure v
  | b => JsonText.flawAhead .trailingCharacters b

def Schema.readTextOrMessage (s : Schema) (text : String) : Except String Json :=
  match s.readText text with
  | .ok v => .ok v
  | .error f => .error (f.render text.toList)

end DenyPolicy
