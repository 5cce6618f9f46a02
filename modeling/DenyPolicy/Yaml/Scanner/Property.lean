import DenyPolicy.Yaml.Scanner.Basic
/-!
# Scanning directives, anchors and tags

* A directive starts a line with `%`: `%YAML major.minor` or `%TAG handle
  prefix`; any other name is refused.  Nothing but blanks and a comment may
  follow it on its line.
* An anchor `&name` or alias `*name` has a name of letters, digits, `_` and
  `-`, followed by a blank, a break, the end of the text or one of `?:,]}%@`
  and the backtick.
* A tag is `!<uri>` written out, `!handle!suffix` with a named handle, `!!suffix`,
  `!suffix`, or `!` alone.  The characters of a URI are letters, digits and
  ``-;/?:@&=+$.,!~*'()[]%`` less the flow indicators outside `!<..>`; `%` starts
  an escaped byte, and escaped bytes must form whole UTF-8 sequences.  A blank,
  a break or the end of the text must follow a tag, or in a flow collection a
  comma.
-/

namespace DenyPolicy

namespace Yaml

namespace Scanner

def versionNumber (start : Mark) (s : Scanner) : Except Fault (Nat × Scanner) :=
  go 0 0 s.left s
where
  /-- Reads digits onto `value`, `count` of them so far. -/
  go (value count : Nat) : Nat → Scanner → Except Fault (Nat × Scanner)
    | 0, s => .ok (value, s)
    | fuel + 1, s =>
      if s.peek.isDigit then
        if count + 1 > 9 then
          .error (s.fault "while scanning a %YAML directive" start "found extremely long version number")
        else go (10 * value + (s.peek.toNat - '0'.toNat)) (count + 1) fuel s.skip
      else if count = 0 then
        .error (s.fault "while scanning a %YAML directive" start "did not find expected version number")
      else .ok (value, s)

def versionValue (start : Mark) (s : Scanner) : Except Fault (TokenKind × Scanner) := do
  let (major, s) ← versionNumber start s.skipBlanks
  if s.peek != '.' then
    throw (s.fault "while scanning a %YAML directive" start "did not find expected digit or '.' character")
  let (minor, s) ← versionNumber start s.skip
  pure (.versionDirective major minor, s)

/-- Reads a tag handle: `!`, then name characters, then `!` if there is one.  In
a directive the handle must be `!` alone or end with `!`. -/
def tagHandle (directive : Bool) (start : Mark) (s : Scanner) : Except Fault (String × Scanner) :=
  if s.peek != '!' then
    .error (s.fault (if directive then "while scanning a tag directive" else "while scanning a tag") start
      "did not find expected '!'")
  else
    let (word, s) := s.skip.takeWord
    let handle := "!" ++ word
    if s.peek == '!' then .ok (handle.push '!', s.skip)
    else if directive && handle != "!" then
      .error (s.fault "while parsing a tag directive" start "did not find expected '!'")
    else .ok (handle, s)

def isUriChar (wide : Bool) (c : Char) : Bool :=
  isWordChar c || ";/?:@&=+$.%!~*'()".contains c || (wide && ",[]".contains c)

def utf8Width (octet : Nat) : Nat :=
  if octet / 128 = 0 then 1
  else if octet / 32 = 6 then 2
  else if octet / 16 = 14 then 3
  else if octet / 8 = 30 then 4
  else 0

/-- Reads escaped bytes `%XX` forming one UTF-8 sequence, `width` bytes of it
left (`0` before its first byte), onto `acc` (last first). -/
def uriEscapes (directive : Bool) (start : Mark) : Nat → Nat → List UInt8 → Scanner →
    Except Fault (List UInt8 × Scanner)
  | 0, _, acc, s => .ok (acc, s)
  | fuel + 1, width, acc, s =>
    let context := if directive then "while parsing a %TAG directive" else "while parsing a tag"
    if !(s.peek == '%' && isHexChar (s.peekAt 1) && isHexChar (s.peekAt 2)) then
      .error (s.fault context start "did not find URI escaped octet")
    else
      let octet := hexDigitsValue [s.peekAt 1, s.peekAt 2]
      let width' := if width = 0 then utf8Width octet else width
      if width = 0 && width' = 0 then .error (s.fault context start "found an incorrect leading UTF-8 octet")
      else if width ≠ 0 && octet / 64 ≠ 2 then
        .error (s.fault context start "found an incorrect trailing UTF-8 octet")
      else
        let s := s.skip.skip.skip
        if width' = 1 then .ok (octet.toUInt8 :: acc, s)
        else uriEscapes directive start fuel (width' - 1) (octet.toUInt8 :: acc) s

def tagUri (wide directive : Bool) (head : String) (start : Mark) (s : Scanner) :
    Except Fault (List UInt8 × Scanner) :=
  let headBytes := if head.length > 1 then (head.drop 1).toString.toUTF8.toList else []
  go head.length headBytes.reverse s.left s
where
  /-- Reads URI characters onto `acc` (last first), `count` read so far. -/
  go (count : Nat) (acc : List UInt8) : Nat → Scanner → Except Fault (List UInt8 × Scanner)
    | 0, s => .ok (acc.reverse, s)
    | fuel + 1, s =>
      let c := s.peek
      if isUriChar wide c then
        if c == '%' then do
          let (acc, s) ← uriEscapes directive start (s.left + 1) 0 acc s
          go (count + 1) acc fuel s
        else go (count + 1) ((String.utf8EncodeChar c).reverse ++ acc) fuel s.skip
      else if count = 0 then
        .error (s.fault (if directive then "while parsing a %TAG directive" else "while parsing a tag") start
          "did not find expected tag URI")
      else .ok (acc.reverse, s)

/-- Reads the handle and prefix of a `%TAG` directive. -/
def tagDirectiveValue (start : Mark) (s : Scanner) : Except Fault (TokenKind × Scanner) := do
  let (handle, s) ← tagHandle true start s.skipBlanks
  if !isBlank s.peek then
    throw (s.fault "while scanning a %TAG directive" start "did not find expected whitespace")
  let (tagPrefix, s) ← tagUri true true "" start s.skipBlanks
  if !isBlankOrEnd s.peek then
    throw (s.fault "while scanning a %TAG directive" start "did not find expected whitespace or line break")
  pure (.tagDirective handle tagPrefix, s)

/-- Scans a directive with the rest of its line. -/
def scanDirective (s : Scanner) : Except Fault (Token × Scanner) := do
  let start := s.mark
  let context := "while scanning a directive"
  let (name, s) := s.skip.takeWord
  if name.isEmpty then throw (s.fault context start "could not find expected directive name")
  if !isBlankOrEnd s.peek then throw (s.fault context start "found unexpected non-alphabetical character")
  let (kind, s) ←
    if name == "YAML" then versionValue start s
    else if name == "TAG" then tagDirectiveValue start s
    else throw (s.fault context start "found unknown directive name")
  let stop := s.mark
  let s := s.skipBlanks
  let s := if s.peek == '#' then s.skipToBreak else s
  if !isBreakOrEnd s.peek then throw (s.fault context start "did not find expected comment or line break")
  let s := if isBreak s.peek then s.skipLine else s
  pure (⟨kind, start, stop⟩, s)

/-- Scans an anchor, or an alias when `isAlias` holds. -/
def scanAnchor (isAlias : Bool) (s : Scanner) : Except Fault (Token × Scanner) :=
  let start := s.mark
  let (name, s) := s.skip.takeWord
  let c := s.peek
  if name.isEmpty || !(isBlankOrEnd c || "?:,]\x7d%@\x60".contains c) then
    .error (s.fault (if isAlias then "while scanning an alias" else "while scanning an anchor") start
      "did not find expected alphabetic or numeric character")
  else .ok (⟨if isAlias then .alias name else .anchor name, start, s.mark⟩, s)

/-- Scans a tag.  `!` alone reads as the empty handle with the suffix `!`. -/
def scanTag (s : Scanner) : Except Fault (Token × Scanner) := do
  let start := s.mark
  let (handle, suffix, s) ←
    if s.peekAt 1 == '<' then do
      let (suffix, s) ← tagUri true false "" start s.skip.skip
      if s.peek != '>' then throw (s.fault "while scanning a tag" start "did not find the expected '>'")
      pure ("", suffix, s.skip)
    else do
      let (handle, s) ← tagHandle false start s
      if handle.length > 1 && handle.endsWith "!" then do
        let (suffix, s) ← tagUri false false "" start s
        pure (handle, suffix, s)
      else do
        let (suffix, s) ← tagUri false false handle start s
        if suffix.isEmpty then pure ("", [33], s) else pure ("!", suffix, s)
  if !isBlankOrEnd s.peek && !(s.inFlow && s.peek == ',') then
    throw (s.fault "while scanning a tag" start "did not find expected whitespace or line break")
  pure (⟨.tag handle suffix, start, s.mark⟩, s)

end Scanner

end Yaml

end DenyPolicy
