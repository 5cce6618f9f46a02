import DenyPolicy.Json.Basic
/-!
# Reading JSON

A reader for RFC 8259 text.  Blanks are the space, tab, line feed and carriage
return.  A string holds no raw character below 32, and its escapes are the
eight short ones and `\uXXXX`, where a surrogate must stand in a pair.  A
number has no leading zero and no bare point; an integer that fits 64 bits is
kept as an integer, and any other number becomes a binary64 value as
`floatValue` computes it, one beyond the largest double being refused.  Arrays and objects nest at most 127 deep, and nothing
but blanks may follow the document.

The reader runs on `List Char` with a step budget: each call consumes a
character before it recurses, so `Json.read` gives a budget of one step per
character and can never run out.
-/

namespace DenyPolicy

namespace Json

/-- Why a text is not a JSON document. -/
inductive ReadError where
  | unexpectedEnd
  | unexpectedChar (c : Char)
  | invalidNumber
  | numberOutOfRange
  | invalidEscape
  | controlInString
  | tooDeep
  | trailingCharacters
  | exhausted
  deriving Repr, DecidableEq

def isBlank (c : Char) : Bool :=
  c = ' ' || c = '\n' || c = '\t' || c = '\r'

/-- The text with its leading blanks removed. -/
def skipBlanks (cs : List Char) : List Char := cs.dropWhile isBlank

def hexValue? (c : Char) : Option Nat :=
  if '0' ≤ c ∧ c ≤ '9' then some (c.toNat - 48)
  else if 'a' ≤ c ∧ c ≤ 'f' then some (c.toNat - 87)
  else if 'A' ≤ c ∧ c ≤ 'F' then some (c.toNat - 55)
  else none

def hex4? (a b c d : Char) : Option Nat := do
  let a ← hexValue? a
  let b ← hexValue? b
  let c ← hexValue? c
  let d ← hexValue? d
  pure (((a * 16 + b) * 16 + c) * 16 + d)

/-- Reads the rest of a string literal after its opening quote; `acc` holds the
characters read so far, last first. -/
def readStringBody (acc : List Char) : List Char → Except ReadError (String × List Char)
  | [] => .error .unexpectedEnd
  | '"' :: rest => .ok (String.ofList acc.reverse, rest)
  | '\\' :: '"' :: rest => readStringBody ('"' :: acc) rest
  | '\\' :: '\\' :: rest => readStringBody ('\\' :: acc) rest
  | '\\' :: '/' :: rest => readStringBody ('/' :: acc) rest
  | '\\' :: 'b' :: rest => readStringBody (Char.ofNat 8 :: acc) rest
  | '\\' :: 'f' :: rest => readStringBody (Char.ofNat 12 :: acc) rest
  | '\\' :: 'n' :: rest => readStringBody ('\n' :: acc) rest
  | '\\' :: 'r' :: rest => readStringBody ('\r' :: acc) rest
  | '\\' :: 't' :: rest => readStringBody ('\t' :: acc) rest
  | '\\' :: 'u' :: a :: b :: c :: d :: rest =>
    match hex4? a b c d with
    | none => .error .invalidEscape
    | some n =>
      if 0xDC00 ≤ n ∧ n ≤ 0xDFFF then .error .invalidEscape
      else if 0xD800 ≤ n ∧ n ≤ 0xDBFF then
        match rest with
        | '\\' :: 'u' :: e :: f :: g :: h :: rest' =>
          match hex4? e f g h with
          | some m =>
            if 0xDC00 ≤ m ∧ m ≤ 0xDFFF then
              readStringBody (Char.ofNat (0x10000 + (n - 0xD800) * 0x400 + (m - 0xDC00)) :: acc) rest'
            else .error .invalidEscape
          | none => .error .invalidEscape
        | _ => .error .invalidEscape
      else readStringBody (Char.ofNat n :: acc) rest
  | '\\' :: _ => .error .invalidEscape
  | c :: rest => if c.toNat < 32 then .error .controlInString else readStringBody (c :: acc) rest

def spanDigits (cs : List Char) : List Char × List Char :=
  (cs.takeWhile Char.isDigit, cs.dropWhile Char.isDigit)

def digitsValue (ds : List Char) : Nat :=
  ds.foldl (fun n c => 10 * n + (c.toNat - 48)) 0

def u64Max : Nat := Nat.pow 2 64 - 1

def i32Max : Nat := Nat.pow 2 31 - 1

def accumulate (s : Nat) : List Char → Nat × List Char
  | [] => (s, [])
  | d :: rest =>
    let v := 10 * s + (d.toNat - 48)
    if v > u64Max then (s, d :: rest) else accumulate v rest

def clampExponent (e : Int) : Int := max (-(i32Max : Int) - 1) (min e i32Max)

/-- The floating value of a number with a fraction or an exponent, or of an
integer beyond 64 bits.  The significand takes the integer digits while it fits
64 bits, each further integer digit raising the exponent by one; it then takes
fraction digits while it still fits, each lowering the exponent by one, and
drops the fraction digits from the first that does not fit.  An exponent whose digits pass the 32-bit range
gives zero, or is out of range when it is positive and the significand is not
zero.  The value is then `Binary64.scaleByTen`. -/
def floatValue (negative : Bool) (whole frac : List Char) (exponent : Option (Bool × List Char)) :
    Except ReadError Numeral := do
  let (s, wholeLeft) := accumulate 0 whole
  let (s, fracLeft) := accumulate s frac
  let fracUsed := frac.length - fracLeft.length
  let start : Int := (wholeLeft.length : Int) - fracUsed
  let e ← match exponent with
    | none => pure (some start)
    | some (positive, ds) =>
      let n := digitsValue ds
      if n > i32Max then
        if s ≠ 0 ∧ positive then .error .numberOutOfRange else pure none
      else pure (some (clampExponent (if positive then start + n else start - n)))
  match e with
  | none => pure (.float negative Binary64.zero)
  | some e =>
    match Binary64.scaleByTen s e with
    | some v => pure (.float negative v)
    | none => .error .numberOutOfRange

/-- The number read from its sign, integer digits, fraction digits and exponent:
an integer that fits is kept as one, and every other number is floating. -/
def classifyNumber (negative : Bool) (whole frac : List Char) (exponent : Option (Bool × List Char)) :
    Except ReadError Numeral :=
  match frac, exponent with
  | [], none =>
    let n := digitsValue whole
    if n > u64Max then floatValue negative whole [] none
    else if negative then
      if n = 0 then .ok (.float true Binary64.zero)
      else if n ≤ Nat.pow 2 63 then .ok (.negInt n)
      else .ok (.float true ((Binary64.ofNat n).getD Binary64.zero))
    else .ok (.nat n)
  | _, _ => floatValue negative whole frac exponent

/-- Reads a number whose sign has been read. -/
def readUnsigned (negative : Bool) (cs : List Char) : Except ReadError (Numeral × List Char) := do
  let (whole, rest) ← match cs with
    | '0' :: rest =>
      match rest with
      | c :: _ => if c.isDigit then .error .invalidNumber else .ok (['0'], rest)
      | [] => .ok (['0'], rest)
    | c :: _ =>
      if c.isDigit then .ok (spanDigits cs) else .error .invalidNumber
    | [] => .error .unexpectedEnd
  let (frac, rest) ← match rest with
    | '.' :: more =>
      let (ds, after) := spanDigits more
      if ds.isEmpty then .error .invalidNumber else .ok (ds, after)
    | _ => .ok ([], rest)
  let (exponent, rest) ← match rest with
    | e :: more =>
      if e = 'e' ∨ e = 'E' then
        let (positive, more) := match more with
          | '+' :: m => (true, m)
          | '-' :: m => (false, m)
          | m => (true, m)
        let (ds, after) := spanDigits more
        if ds.isEmpty then .error .invalidNumber
        else .ok (some (positive, ds), after)
      else .ok (none, rest)
    | [] => .ok (none, rest)
  let n ← classifyNumber negative whole frac exponent
  pure (n, rest)

def expectWord (word : List Char) (cs : List Char) : Except ReadError (List Char) :=
  if word.isPrefixOf cs then .ok (cs.drop word.length)
  else match cs.find? (fun _ => true) with
    | some c => .error (.unexpectedChar c)
    | none => .error .unexpectedEnd

def maxDepth : Nat := 127

mutual
/-- Reads one value after optional blanks; `depth` counts the arrays and objects
around it. -/
def readValue : Nat → Nat → List Char → Except ReadError (Json × List Char)
  | 0, _, _ => .error .exhausted
  | fuel + 1, depth, cs =>
    match skipBlanks cs with
    | [] => .error .unexpectedEnd
    | 'n' :: _ => do let r ← expectWord "null".toList (skipBlanks cs); pure (.null, r)
    | 't' :: _ => do let r ← expectWord "true".toList (skipBlanks cs); pure (.bool true, r)
    | 'f' :: _ => do let r ← expectWord "false".toList (skipBlanks cs); pure (.bool false, r)
    | '"' :: rest => do let (s, r) ← readStringBody [] rest; pure (.str s, r)
    | '-' :: rest => do let (n, r) ← readUnsigned true rest; pure (.num n, r)
    | '[' :: rest =>
      if maxDepth ≤ depth then .error .tooDeep
      else match skipBlanks rest with
        | ']' :: r => .ok (.arr [], r)
        | _ => do let (xs, r) ← readItems fuel (depth + 1) rest; pure (.arr xs, r)
    | '{' :: rest =>
      if maxDepth ≤ depth then .error .tooDeep
      else match skipBlanks rest with
        | '}' :: r => .ok (.obj [], r)
        | _ => do let (fs, r) ← readFields fuel (depth + 1) rest; pure (.obj fs, r)
    | c :: rest =>
      if c.isDigit then do let (n, r) ← readUnsigned false (c :: rest); pure (.num n, r)
      else .error (.unexpectedChar c)

/-- Reads the items of a non-empty array and its closing bracket. -/
def readItems : Nat → Nat → List Char → Except ReadError (List Json × List Char)
  | 0, _, _ => .error .exhausted
  | fuel + 1, depth, cs => do
    let (x, rest) ← readValue fuel depth cs
    match skipBlanks rest with
    | ',' :: more => do let (xs, r) ← readItems fuel depth more; pure (x :: xs, r)
    | ']' :: more => pure ([x], more)
    | c :: _ => .error (.unexpectedChar c)
    | [] => .error .unexpectedEnd

/-- Reads the fields of a non-empty object and its closing brace. -/
def readFields : Nat → Nat → List Char → Except ReadError (List (String × Json) × List Char)
  | 0, _, _ => .error .exhausted
  | fuel + 1, depth, cs =>
    match skipBlanks cs with
    | '"' :: rest => do
      let (k, rest) ← readStringBody [] rest
      match skipBlanks rest with
      | ':' :: rest => do
        let (v, rest) ← readValue fuel depth rest
        match skipBlanks rest with
        | ',' :: more => do let (fs, r) ← readFields fuel depth more; pure ((k, v) :: fs, r)
        | '}' :: more => pure ([(k, v)], more)
        | c :: _ => .error (.unexpectedChar c)
        | [] => .error .unexpectedEnd
      | c :: _ => .error (.unexpectedChar c)
      | [] => .error .unexpectedEnd
    | c :: _ => .error (.unexpectedChar c)
    | [] => .error .unexpectedEnd
end

/-- Reads a whole JSON document. -/
def read (text : String) : Except ReadError Json := do
  let cs := text.toList
  let (v, rest) ← readValue (2 * cs.length + 2) 0 cs
  match skipBlanks rest with
  | [] => pure v
  | _ => .error .trailingCharacters

end Json

end DenyPolicy
