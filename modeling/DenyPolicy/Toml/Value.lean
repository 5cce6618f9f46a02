import DenyPolicy.Toml.Table
import DenyPolicy.Decimal.Binary64
/-!
# Keys and values of TOML

The grammar of TOML 1.0 for what stands between the key-value lines and headers
of a document: blanks, comments and line breaks, keys, the four kinds of
string, booleans, integers, floats, dates and times, arrays and inline tables.

A value is chosen by its first character.  One that starts with a sign or a
digit is read as a date or time, else as a float, else as an integer; each of
these commits once its text cannot belong to another (after `1_` only a digit
may come, after `1979-` a month), and a date may stand alone when the time after
it does not fit.  Ranges are checked as the text is read: months `01`–`12`,
days up to the month's length, hours `00`–`23`, minutes `00`–`59`, seconds
`00`–`60`, and integers in 64 bits.  Arrays and inline tables nest at most 79
deep.
-/

namespace DenyPolicy
namespace Toml

/-! ## Characters -/

def isWsChar (c : Char) : Bool := c == ' ' || c == '\t'

def isNonAscii (c : Char) : Bool := c.toNat ≥ 0x80

def isNonEol (c : Char) : Bool := c == '\t' || (0x20 ≤ c.toNat && c.toNat ≤ 0x7e) || isNonAscii c

def isBasicUnescaped (c : Char) : Bool := isNonEol c && c != '"' && c != '\\'

def isLiteralChar (c : Char) : Bool := isNonEol c && c != '\''

def isBareKeyChar (c : Char) : Bool :=
  ('A' ≤ c && c ≤ 'Z') || ('a' ≤ c && c ≤ 'z') || ('0' ≤ c && c ≤ '9') || c == '-' || c == '_'

def isDecDigit (c : Char) : Bool := '0' ≤ c && c ≤ '9'

def isHexDigit (c : Char) : Bool := isDecDigit c || ('a' ≤ c && c ≤ 'f') || ('A' ≤ c && c ≤ 'F')

def hexDigitValue (c : Char) : Nat :=
  if isDecDigit c then c.toNat - '0'.toNat
  else if 'a' ≤ c && c ≤ 'f' then c.toNat - 'a'.toNat + 10
  else c.toNat - 'A'.toNat + 10

def digitsValue (base : Nat) (ds : List Char) : Nat :=
  ds.foldl (fun v c => base * v + hexDigitValue c) 0

/-! ## Blanks, comments and line breaks -/

def ws (cs : List Char) : List Char := cs.dropWhile isWsChar

def newline? : List Char → Option (List Char)
  | '\n' :: r => some r
  | '\r' :: '\n' :: r => some r
  | _ => none

def comment? : List Char → Option (List Char)
  | '#' :: r => some (r.dropWhile isNonEol)
  | _ => none

/-- The end of a line: blanks, perhaps a comment, then a line break or the end of
the text. -/
def lineTrailing (cs : List Char) : Except Failure (Unit × List Char) :=
  let r := ws cs
  let r := (comment? r).getD r
  match r with
  | [] => .ok ((), [])
  | _ =>
    match newline? r with
    | some r' => .ok ((), r')
    | none => .error (.miss r)

/-- Blanks, and comments and line breaks, between the values of an array: a
comment must end its line. -/
def wsCommentNewline : Nat → List Char → Except Failure (Unit × List Char)
  | 0, cs => .ok ((), cs)
  | fuel + 1, cs =>
    let r := ws cs
    match r with
    | '#' :: _ =>
      let r1 := (comment? r).getD r
      match newline? r1 with
      | some r2 => wsCommentNewline fuel r2
      | none => .error (.miss r1)
    | '\n' :: _ | '\r' :: _ =>
      match newline? r with
      | some r2 => wsCommentNewline fuel r2
      | none => .error (.miss r)
    | _ => .ok ((), r)

def skipWsNewlines : List Char → List Char
  | ' ' :: r => skipWsNewlines r
  | '\t' :: r => skipWsNewlines r
  | '\n' :: r => skipWsNewlines r
  | '\r' :: '\n' :: r => skipWsNewlines r
  | cs => cs

/-! ## Strings -/

def escapeLetters : List String :=
  ["`b`", "`f`", "`n`", "`r`", "`t`", "`u`", "`U`", "`\\`", "`\"`"]

/-- The character of exactly `n` hexadecimal digits, a Unicode scalar value.
Too few digits, or a value that names no character, is fatal at the digits. -/
def hexEscape (n : Nat) (label : String) (cs : List Char) : Except Failure (Char × List Char) :=
  let ds := (cs.takeWhile isHexDigit).take n
  if ds.length != n then .error { fatal := true, labels := [label], rest := cs }
  else
    let v := digitsValue 16 ds
    if v.isValidChar then .ok (Char.ofNat v, cs.drop n)
    else .error { fatal := true, labels := [label], cause := some "value is out of range", rest := cs }

/-- The character an escape stands for, after its backslash. -/
def escapeSeq (cs : List Char) : Except Failure (Char × List Char) :=
  match cs with
  | 'b' :: r => .ok ('\x08', r)
  | 'f' :: r => .ok ('\x0c', r)
  | 'n' :: r => .ok ('\n', r)
  | 'r' :: r => .ok ('\r', r)
  | 't' :: r => .ok ('\t', r)
  | 'u' :: r => hexEscape 4 "unicode 4-digit hex code" r
  | 'U' :: r => hexEscape 8 "unicode 8-digit hex code" r
  | '\\' :: r => .ok ('\\', r)
  | '"' :: r => .ok ('"', r)
  | _ :: r => .error { fatal := true, labels := ["escape sequence"], expected := escapeLetters, rest := r }
  | [] => .error (.miss [])

/-- The rest of a basic string after its opening quote, `acc` holding what is read
(last first); the closing quote must come before a character that cannot stand
in it. -/
def basicBody : Nat → List Char → List Char → Except Failure (String × List Char)
  | 0, _, cs => .error { fatal := true, labels := ["basic string"], rest := cs }
  | fuel + 1, acc, cs =>
    let unclosed : Failure := { fatal := true, labels := ["basic string"], rest := cs }
    match cs with
    | '"' :: r => .ok (String.ofList acc.reverse, r)
    | '\\' :: r =>
      match escapeSeq r with
      | .ok (c, r') => basicBody fuel (c :: acc) r'
      | .error f => .error (if f.fatal then f else unclosed)
    | c :: r => if isBasicUnescaped c then basicBody fuel (c :: acc) r else .error unclosed
    | [] => .error unclosed

def basicString (cs : List Char) : Except Failure (String × List Char) :=
  match cs with
  | '"' :: r => basicBody (r.length + 1) [] r
  | _ => .error (.miss cs)

/-- A literal string: text between apostrophes, taken as it is. -/
def literalString (cs : List Char) : Except Failure (String × List Char) :=
  match cs with
  | '\'' :: r =>
    let body := r.takeWhile isLiteralChar
    match r.drop body.length with
    | '\'' :: r' => .ok (String.ofList body, r')
    | r' => .error { fatal := true, labels := ["literal string"], rest := r' }
  | _ => .error { labels := ["literal string"], rest := cs }

def runOf (q : Char) : List Char → Nat
  | c :: r => if c == q then runOf q r + 1 else 0
  | [] => 0

/-- One piece of a multi-line basic string: unescaped characters, a backslash
that ends a line (read as nothing), an escape, or a line break. -/
def mlBasicPiece (cs : List Char) : Except Failure ((List Char) × List Char) :=
  match cs with
  | '\\' :: r =>
    match newline? (ws r) with
    | some r' => .ok ([], skipWsNewlines r')
    | none =>
      match escapeSeq r with
      | .ok (c, r') => .ok ([c], r')
      | .error f => .error (if f.fatal then f else .miss cs)
  | c :: _ =>
    if isBasicUnescaped c then
      let t := cs.takeWhile isBasicUnescaped
      .ok (t, cs.drop t.length)
    else match newline? cs with
      | some r => .ok (['\n'], r)
      | none => .error (.miss cs)
  | [] => .error (.miss [])

/-- The rest of a multi-line basic string after its opening quotes, `acc`
holding what is read (last first).  Three quotes close it; one or two more
before them belong to the text, as do one or two quotes followed by more text. -/
def mlBasicBody : Nat → List Char → List Char → Except Failure (String × List Char)
  | 0, _, cs => .error (.stop cs)
  | fuel + 1, acc, cs =>
    match cs with
    | '"' :: _ =>
      let n := runOf '"' cs
      if 3 ≤ n then
        let extra := min (n - 3) 2
        .ok (String.ofList (acc.reverse ++ List.replicate extra '"'), cs.drop (3 + extra))
      else
        let after := cs.drop n
        match mlBasicPiece after with
        | .ok (piece, r) => mlBasicBody fuel (piece.reverse ++ List.replicate n '"' ++ acc) r
        | .error f => .error (if f.fatal then f else .stop (if after.isEmpty then cs else after))
    | _ =>
      match mlBasicPiece cs with
      | .ok (piece, r) => mlBasicBody fuel (piece.reverse ++ acc) r
      | .error f => .error (if f.fatal then f else .stop cs)

/-- A multi-line basic string: text between triple quotes, a line break right
after the opening quotes left out. -/
def mlBasicString (cs : List Char) : Except Failure (String × List Char) :=
  Step.label "multiline basic string" <|
  match cs with
  | '"' :: '"' :: '"' :: r =>
    let r := (newline? r).getD r
    mlBasicBody (r.length + 1) [] r
  | _ => .error (.miss cs)

def mlLiteralPiece (cs : List Char) : Option (List Char × List Char) :=
  match cs with
  | c :: r =>
    if isLiteralChar c then some ([c], r)
    else (newline? cs).map (['\n'], ·)
  | [] => none

/-- The rest of a multi-line literal string after its opening apostrophes, `acc`
holding what is read (last first). -/
def mlLiteralBody : Nat → List Char → List Char → Except Failure (String × List Char)
  | 0, _, cs => .error (.stop cs)
  | fuel + 1, acc, cs =>
    match cs with
    | '\'' :: _ =>
      let n := runOf '\'' cs
      if 3 ≤ n then
        let extra := min (n - 3) 2
        .ok (String.ofList (acc.reverse ++ List.replicate extra '\''), cs.drop (3 + extra))
      else
        match mlLiteralPiece (cs.drop n) with
        | some (piece, r) => mlLiteralBody fuel (piece.reverse ++ List.replicate n '\'' ++ acc) r
        | none => .error (.stop cs)
    | _ =>
      match mlLiteralPiece cs with
      | some (piece, r) => mlLiteralBody fuel (piece.reverse ++ acc) r
      | none => .error (.stop cs)

/-- A multi-line literal string: text between triple apostrophes, a line break
right after the opening ones left out. -/
def mlLiteralString (cs : List Char) : Except Failure (String × List Char) :=
  Step.label "multiline literal string" <|
  match cs with
  | '\'' :: '\'' :: '\'' :: r =>
    let r := (newline? r).getD r
    mlLiteralBody (r.length + 1) [] r
  | _ => .error (.miss cs)

def string (cs : List Char) : Except Failure (String × List Char) :=
  Step.orElse cs (mlBasicString cs) fun _ =>
  Step.orElse cs (basicString cs) fun _ =>
  Step.orElse cs (mlLiteralString cs) fun _ => literalString cs

/-! ## Keys -/

def spanOf (total : Nat) (cs rest : List Char) : Span := ⟨total - cs.length, total - rest.length⟩

/-- A simple key: a basic or literal string, or a bare key. -/
def simpleKey (total : Nat) (cs : List Char) : Except Failure (Key × List Char) :=
  let keyed (s : Except Failure (String × List Char)) : Except Failure (Key × List Char) :=
    s.map fun (name, r) => (⟨name, String.ofList (consumed cs r), spanOf total cs r⟩, r)
  match cs with
  | '"' :: _ => keyed (basicString cs)
  | '\'' :: _ => keyed (literalString cs)
  | _ =>
    let t := cs.takeWhile isBareKeyChar
    if t.isEmpty then .error (.miss cs)
    else
      let r := cs.drop t.length
      .ok (⟨String.ofList t, String.ofList t, spanOf total cs r⟩, r)

/-- The simple keys after the first of a dotted key: a dot and a simple key, with
blanks around; a dot not followed by a key is left unread. -/
def moreKeys (total : Nat) : Nat → List Char → Except Failure ((List Key) × List Char)
  | 0, cs => .ok ([], cs)
  | fuel + 1, cs =>
    match cs with
    | '.' :: r =>
      match simpleKey total (ws r) with
      | .ok (k, r') => do
        let (ks, r'') ← moreKeys total fuel (ws r')
        pure (k :: ks, r'')
      | .error f => if f.fatal then .error f else .ok ([], cs)
    | _ => .ok ([], cs)

def nestingLimit : Nat := 80

/-- A key: simple keys joined by dots, blanks allowed around each. -/
def key (total : Nat) (cs : List Char) : Except Failure ((List Key) × List Char) :=
  let read : Except Failure ((List Key) × List Char) := Step.label "key" do
    let (k, r) ← simpleKey total (ws cs)
    let (ks, r') ← moreKeys total (r.length + 1) (ws r)
    pure (k :: ks, r')
  match read with
  | .ok (ks, r) =>
    if nestingLimit ≤ ks.length then .error { cause := some Clash.tooDeep.message, rest := cs }
    else .ok (ks, r)
  | .error f => .error f

/-! ## Numbers, dates and times -/

def takeClass (m n : Nat) (p : Char → Bool) (cs : List Char) : Except Failure ((List Char) × List Char) :=
  let t := (cs.takeWhile p).take n
  if t.length < m then .error (.miss cs) else .ok (t, cs.drop t.length)

def twoDigits (lo hi : Nat) (cs : List Char) : Except Failure (Nat × List Char) := do
  let (ds, r) ← takeClass 2 2 isDecDigit cs
  let v := digitsValue 10 ds
  if lo ≤ v ∧ v ≤ hi then pure (v, r)
  else .error { cause := some "value is out of range", rest := cs }

def monthLength (year month : Nat) : Nat :=
  let leap := year % 4 == 0 && (year % 100 != 0 || year % 400 == 0)
  if month == 2 then (if leap then 29 else 28)
  else if month == 4 || month == 6 || month == 9 || month == 11 then 30
  else 31

/-- A date `YYYY-MM-DD`: after the year and its hyphen the text is committed. -/
def fullDate (cs : List Char) : Except Failure (Unit × List Char) := do
  let (y, r) ← takeClass 4 4 isDecDigit cs
  match r with
  | '-' :: r1 =>
    let (m, r2) ← Step.commit (twoDigits 1 12 r1)
    match r2 with
    | '-' :: r3 =>
      let (d, r4) ← Step.commit (twoDigits 1 31 r3)
      if d > monthLength (digitsValue 10 y) m then
        .error { fatal := true, cause := some "value is out of range", rest := r3 }
      else pure ((), r4)
    | _ => .error (.stop r2)
  | _ => .error (.miss r)

/-- A time `HH:MM:SS` with an optional fraction of a second: after the hour and
its colon the text is committed. -/
def partialTime (cs : List Char) : Except Failure (Unit × List Char) := do
  let (_, r) ← twoDigits 0 23 cs
  match r with
  | ':' :: r1 =>
    Step.commit do
      let (_, r2) ← twoDigits 0 59 r1
      match r2 with
      | ':' :: r3 => do
        let (_, r4) ← twoDigits 0 60 r3
        match r4 with
        | '.' :: r5 =>
          let fraction := r5.takeWhile isDecDigit
          if fraction.isEmpty then pure ((), r4) else pure ((), r5.drop fraction.length)
        | _ => pure ((), r4)
      | _ => .error (.miss r2)
  | _ => .error (.miss r)

/-- An offset from UTC: `Z`, or a sign, hours and minutes. -/
def timeOffset (cs : List Char) : Except Failure (Unit × List Char) :=
  Step.label "time offset" <|
  match cs with
  | 'Z' :: r => .ok ((), r)
  | 'z' :: r => .ok ((), r)
  | s :: r =>
    if s == '+' || s == '-' then
      Step.commit do
        let (_, r1) ← twoDigits 0 23 r
        match r1 with
        | ':' :: r2 => do
          let (_, r3) ← twoDigits 0 59 r2
          pure ((), r3)
        | _ => .error (.miss r1)
    else .error (.miss cs)
  | [] => .error (.miss [])

/-- The time after a date: `T`, `t` or a space, a time, perhaps an offset. -/
def timeAfterDate (cs : List Char) : Except Failure (Unit × List Char) :=
  match cs with
  | d :: r =>
    if d == 'T' || d == 't' || d == ' ' then do
      let ((), r1) ← partialTime r
      let (_, r2) ← Step.optional r1 (timeOffset r1)
      pure ((), r2)
    else .error (.miss cs)
  | [] => .error (.miss [])

/-- A date with perhaps a time, or a time alone. -/
def dateTime (cs : List Char) : Except Failure (Unit × List Char) :=
  Step.orElse cs
    (Step.label "date-time" do
      let ((), r) ← fullDate cs
      let (_, r') ← Step.optional r (timeAfterDate r)
      pure ((), r'))
    (fun _ => Step.label "time" (partialTime cs))

def sign (cs : List Char) : Option Char × List Char :=
  match cs with
  | '+' :: r => (some '+', r)
  | '-' :: r => (some '-', r)
  | r => (none, r)

/-- Digits after a first one, an underscore allowed between two digits: after an
underscore a digit must come. -/
def moreDigits (p : Char → Bool) : List Char → Except Failure (Unit × List Char)
  | c :: r =>
    if p c then moreDigits p r
    else if c == '_' then
      match r with
      | d :: r' =>
        if p d then moreDigits p r' else .error { fatal := true, expected := ["digit"], rest := d :: r' }
      | [] => .error { fatal := true, expected := ["digit"], rest := [] }
    else .ok ((), c :: r)
  | [] => .ok ((), [])

/-- A decimal integer's text: a sign, then `0` or a digit from `1` and more
digits. -/
def decInt (cs : List Char) : Except Failure ((List Char) × List Char) :=
  Step.label "integer" <|
  let r := (sign cs).2
  match r with
  | c :: r' =>
    if '1' ≤ c && c ≤ '9' then (moreDigits isDecDigit r').map fun ((), rest) => (consumed cs rest, rest)
    else if c == '0' then .ok (consumed cs r', r')
    else .error (.miss r)
  | [] => .error (.miss [])

def zeroPrefixable (cs : List Char) : Except Failure (Unit × List Char) :=
  match cs with
  | c :: r => if isDecDigit c then moreDigits isDecDigit r else .error (.miss cs)
  | [] => .error (.miss [])

def fraction (cs : List Char) : Except Failure (Unit × List Char) :=
  match cs with
  | '.' :: r => Step.expect "digit" (Step.commit (zeroPrefixable r))
  | _ => .error (.miss cs)

def exponent (cs : List Char) : Except Failure (Unit × List Char) :=
  match cs with
  | e :: r => if e == 'e' || e == 'E' then Step.commit (zeroPrefixable (sign r).2) else .error (.miss cs)
  | [] => .error (.miss [])

/-- The text of a float: a decimal integer, then an exponent, or a fraction and
perhaps an exponent. -/
def floatText (cs : List Char) : Except Failure ((List Char) × List Char) := do
  let (_, r) ← decInt cs
  let ((), r') ← Step.orElse r (exponent r) fun _ => do
    let ((), r1) ← fraction r
    let (_, r2) ← Step.optional r1 (exponent r1)
    pure ((), r2)
  pure (consumed cs r', r')

/-- The float a float's text stands for, underscores left out; `none` when it is
too large for binary64.  A negative one that large is negative infinity. -/
def floatValue (text : List Char) : Option Found :=
  let cs := text.filter (· != '_')
  let (s, body) := sign cs
  let negative := s == some '-'
  let whole := body.takeWhile isDecDigit
  let rest := body.drop whole.length
  let (frac, rest) := match rest with
    | '.' :: r => (r.takeWhile isDecDigit, r.drop (r.takeWhile isDecDigit).length)
    | r => ([], r)
  let expo : Int := match rest with
    | _ :: r =>
      let (es, ds) := sign r
      let v : Int := digitsValue 10 ds
      if es == some '-' then -v else v
    | [] => 0
  match Binary64.ofDecimal (digitsValue 10 (whole ++ frac)) (expo - frac.length) with
  | some v => some (.float negative v)
  | none => if negative then some (.infinity true) else none

def specialFloat (cs : List Char) : Except Failure (Found × List Char) :=
  let (s, r) := sign cs
  match r with
  | 'i' :: 'n' :: 'f' :: r' => .ok (.infinity (s == some '-'), r')
  | 'n' :: 'a' :: 'n' :: r' => .ok (.nan, r')
  | _ => .error (.miss r)

/-- A float: its text and value, or `inf` or `nan`.  A value too large for
binary64 is refused at the start of its text. -/
def float (cs : List Char) : Except Failure (Found × List Char) :=
  Step.label "floating-point number" <|
  Step.orElse cs
    (match floatText cs with
     | .ok (text, r) =>
       match floatValue text with
       | some f => .ok (f, r)
       | none => .error (.stop cs)
     | .error f => .error f)
    (fun _ => specialFloat cs)

/-- An integer after a base prefix such as `0x`: digits of the base, underscores
between them, below `2^63`. -/
def radixInt (base : Nat) (label : String) (p : Char → Bool) (cs body : List Char) : Except Failure (Int × List Char) :=
  let digits : Except Failure ((List Char) × List Char) := Step.label label <| Step.commit <|
    match body with
    | c :: r => if p c then (moreDigits p r).map fun ((), rest) => (consumed body rest, rest) else .error (.miss body)
    | [] => .error (.miss [])
  match digits with
  | .ok (text, r) =>
    let v := digitsValue base (text.filter (· != '_'))
    if v < Nat.pow 2 63 then .ok (v, r)
    else .error { fatal := true, cause := some "number too large to fit in target type", rest := cs }
  | .error f => .error f

/-- An integer: hexadecimal, octal or binary after `0x`, `0o` or `0b`, else
decimal with a sign, within 64 bits. -/
def integer (cs : List Char) : Except Failure (Int × List Char) :=
  match cs with
  | '0' :: 'x' :: r => radixInt 16 "hexadecimal integer" isHexDigit cs r
  | '0' :: 'o' :: r => radixInt 8 "octal integer" (fun c => '0' ≤ c && c ≤ '7') cs r
  | '0' :: 'b' :: r => radixInt 2 "binary integer" (fun c => c == '0' || c == '1') cs r
  | _ => do
    let (text, r) ← decInt cs
    let (s, ds) := sign (text.filter (· != '_'))
    let v := digitsValue 10 ds
    if s == some '-' then
      if v ≤ Nat.pow 2 63 then pure (-(v : Int), r)
      else .error { fatal := true, cause := some "number too small to fit in target type", rest := cs }
    else if v < Nat.pow 2 63 then pure (v, r)
    else .error { fatal := true, cause := some "number too large to fit in target type", rest := cs }

def asString {α : Type} (s : Except Failure (α × List Char)) : Except Failure (α × List Char) :=
  Step.expect "`'`" (Step.expect "`\"`" (Step.label "string" s))

def word (w : String) (cs : List Char) : Except Failure (Unit × List Char) :=
  if w.toList.isPrefixOf cs then .ok ((), cs.drop w.length) else .error (.miss cs)

/-! ## Values -/

mutual

/-- A value, chosen by its first character.  `depth` counts the arrays and inline
tables around it; `fuel` bounds the steps. -/
def value (total depth : Nat) : Nat → List Char → Except Failure (Node × List Char)
  | 0, cs => .error (.stop cs)
  | fuel + 1, cs =>
    let scalar (v : Except Failure (Value × List Char)) : Except Failure (Node × List Char) := v.map fun (x, r) => (.value x (spanOf total cs r), r)
    match cs with
    | '"' :: _ | '\'' :: _ => scalar (Step.mapResult .text (string cs))
    | '[' :: _ => array total depth fuel cs
    | '{' :: _ => inlineTable total depth fuel cs
    | c :: _ =>
      if c == '+' || c == '-' || isDecDigit c then
        scalar (Step.orElse cs (Step.mapResult (fun () => .datetime) (dateTime cs)) fun _ =>
          Step.orElse cs (Step.mapResult .float (float cs)) fun _ => Step.mapResult .integer (integer cs))
      else if c == '_' then scalar (Step.expect "leading digit" (Step.mapResult .integer (integer cs)))
      else if c == '.' then scalar (Step.expect "leading digit" (Step.mapResult .float (float cs)))
      else if c == 't' then scalar (asString (Step.mapResult (fun () => .boolean true) (Step.commit (word "true" cs))))
      else if c == 'f' then scalar (asString (Step.mapResult (fun () => .boolean false) (Step.commit (word "false" cs))))
      else if c == 'i' then scalar (asString (Step.mapResult (fun () => .float (.infinity false)) (word "inf" cs)))
      else if c == 'n' then scalar (asString (Step.mapResult (fun () => .float .nan) (word "nan" cs)))
      else asString (.error (.miss cs))
    | [] => asString (.error (.miss []))

/-- An array: values between brackets, parted by commas, a comma allowed after
the last, with blanks, comments and line breaks around them. -/
def array (total depth : Nat) : Nat → List Char → Except Failure (Node × List Char)
  | 0, cs => .error (.stop cs)
  | fuel + 1, cs =>
    match cs with
    | '[' :: r =>
      if nestingLimit ≤ depth + 1 then .error { fatal := true, cause := some Clash.tooDeep.message, rest := r }
      else
        match arrayValues total (depth + 1) fuel r with
        | .ok ((), r1) =>
          match r1 with
          | ']' :: r2 => .ok (.value .array (spanOf total cs r2), r2)
          | _ => .error { fatal := true, labels := ["array"], expected := ["`]`"], rest := r1 }
        | .error f => .error { f with fatal := true }
    | _ => .error (.miss cs)

/-- The values of an array after its opening bracket. -/
def arrayValues (total depth : Nat) : Nat → List Char → Except Failure (Unit × List Char)
  | 0, cs => .error (.stop cs)
  | fuel + 1, cs => do
    let (_, r) ← Step.optional cs (do
      let ((), r) ← arrayValue total depth fuel cs
      let ((), r) ← moreArrayValues total depth fuel r
      match r with
      | ',' :: r' => pure ((), r')
      | _ => pure ((), r))
    wsCommentNewline (r.length + 1) r

def arrayValue (total depth : Nat) : Nat → List Char → Except Failure (Unit × List Char)
  | 0, cs => .error (.stop cs)
  | fuel + 1, cs => do
    let ((), r) ← wsCommentNewline (cs.length + 1) cs
    let (_, r) ← value total depth fuel r
    wsCommentNewline (r.length + 1) r

/-- The values after the first: a comma and a value each; a comma not followed by
a value is left unread. -/
def moreArrayValues (total depth : Nat) : Nat → List Char → Except Failure (Unit × List Char)
  | 0, cs => .ok ((), cs)
  | fuel + 1, cs =>
    match cs with
    | ',' :: r =>
      match arrayValue total depth fuel r with
      | .ok ((), r') => moreArrayValues total depth fuel r'
      | .error f => if f.fatal then .error f else .ok ((), cs)
    | _ => .ok ((), cs)

/-- An inline table: key-value pairs between braces, parted by commas. -/
def inlineTable (total depth : Nat) : Nat → List Char → Except Failure (Node × List Char)
  | 0, cs => .error (.stop cs)
  | fuel + 1, cs =>
    match cs with
    | '{' :: r =>
      if nestingLimit ≤ depth + 1 then .error { fatal := true, cause := some Clash.tooDeep.message, rest := r }
      else
        match inlinePairs total (depth + 1) fuel r with
        | .ok (pairs, r1) =>
          match inlineEntries pairs with
          | .error clash => .error { fatal := true, cause := some clash.message, rest := r }
          | .ok entries =>
            match r1 with
            | '}' :: r2 => .ok (.table true false false (some (spanOf total cs r2)) entries, r2)
            | _ => .error { fatal := true, labels := ["inline table"], expected := ["`\x7d`"], rest := r1 }
        | .error f => .error { f with fatal := true }
    | _ => .error (.miss cs)

/-- The key-value pairs of an inline table and the blanks after them. -/
def inlinePairs (total depth : Nat) : Nat → List Char → Except Failure ((List (List Key × Key × Node)) × List Char)
  | 0, cs => .error (.stop cs)
  | fuel + 1, cs =>
    match inlinePair total depth fuel cs with
    | .ok (p, r) => do
      let (ps, r') ← morePairs total depth fuel r
      pure (p :: ps, ws r')
    | .error f => if f.fatal then .error f else .ok ([], ws cs)

/-- The pairs after the first: a comma and a pair each; a comma not followed by
a pair is left unread. -/
def morePairs (total depth : Nat) : Nat → List Char → Except Failure ((List (List Key × Key × Node)) × List Char)
  | 0, cs => .ok ([], cs)
  | fuel + 1, cs =>
    match cs with
    | ',' :: r =>
      match inlinePair total depth fuel r with
      | .ok (p, r') => do
        let (ps, r'') ← morePairs total depth fuel r'
        pure (p :: ps, r'')
      | .error f => if f.fatal then .error f else .ok ([], cs)
    | _ => .ok ([], cs)

/-- A key-value pair of an inline table: after its key, `=` and a value must
follow. -/
def inlinePair (total depth : Nat) : Nat → List Char → Except Failure ((List Key × Key × Node) × List Char)
  | 0, cs => .error (.stop cs)
  | fuel + 1, cs => do
    let (ks, r) ← key total cs
    Step.commit <|
      match r with
      | '=' :: r1 => do
        let (v, r2) ← value total depth fuel (ws r1)
        pure ((ks.dropLast, ks.getLastD ⟨"", "", ⟨0, 0⟩⟩, v), ws r2)
      | _ => .error { expected := ["`.`", "`=`"], rest := r }

end

end Toml
end DenyPolicy
