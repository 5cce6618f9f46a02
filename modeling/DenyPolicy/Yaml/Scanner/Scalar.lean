import DenyPolicy.Yaml.Scanner.Basic
/-!
# Scanning scalars

The three kinds of scalar a scanner cuts, and how each folds its lines.

* A *plain* scalar runs up to a `: ` or ` #`, and inside a flow collection up to
  a flow indicator; in the block context its continuation lines must be indented
  deeper than the collection around it.  Inside a flow collection a `:`
  directly before a flow indicator or `?` is refused.
* A *quoted* scalar runs up to its closing quote.  In single quotes a quote is
  written twice; in double quotes a backslash starts an escape, and a backslash
  at the end of a line joins the lines without a blank.
* A *block* scalar, literal `|` or folded `>`, takes the lines indented at
  least as deep as its first line with content, or as its header says.  Its
  last line break is dropped, kept, or kept with the empty lines after it, as
  the header's chomping indicator `-`, none or `+` says.

Plain and quoted scalars fold their lines alike: blanks at the ends of lines
go, a single line break becomes a space, and each empty line after it a line
feed.
-/

namespace DenyPolicy

namespace Yaml

/-- The text of a plain or quoted scalar being read, with the blanks and breaks
seen since its last character that are not written yet. -/
structure Folding where
  text : String := ""
  /-- The first line break of a run of blanks and breaks. -/
  leadingBreak : String := ""
  /-- The line breaks after it. -/
  trailingBreaks : String := ""
  /-- The blanks of a run that has no line break so far. -/
  whitespaces : String := ""
  /-- Whether the run holds a line break, or follows an escaped one. -/
  leadingBlanks : Bool := false
  deriving Repr, Inhabited

namespace Folding

/-- Writes the run of blanks and breaks before the next character: its blanks if
it holds no line break; else one space for a line feed alone, the later breaks
for a line feed followed by empty lines, and every break for any other. -/
def flush (f : Folding) : Folding :=
  if f.leadingBlanks then
    let gap :=
      if f.leadingBreak.startsWith "\n" then (if f.trailingBreaks.isEmpty then " " else f.trailingBreaks)
      else f.leadingBreak ++ f.trailingBreaks
    { f with text := f.text ++ gap, leadingBreak := "", trailingBreaks := "", leadingBlanks := false }
  else { f with text := f.text ++ f.whitespaces, whitespaces := "" }

def blank (f : Folding) (c : Char) : Folding :=
  if f.leadingBlanks then f else { f with whitespaces := f.whitespaces.push c }

def lineBreak (f : Folding) (b : String) : Folding :=
  if f.leadingBlanks then { f with trailingBreaks := f.trailingBreaks ++ b }
  else { f with whitespaces := "", leadingBreak := b, leadingBlanks := true }

end Folding

namespace Scanner

def atDocumentMarker (s : Scanner) : Bool :=
  s.mark.column == 0 &&
    ((s.peekAt 0 == '-' && s.peekAt 1 == '-' && s.peekAt 2 == '-') ||
      (s.peekAt 0 == '.' && s.peekAt 1 == '.' && s.peekAt 2 == '.')) &&
    isBlankOrEnd (s.peekAt 3)

/-- Reads the characters of a plain scalar up to a blank, a break, the end of the
text or an indicator that ends it, and where its text so far ends. -/
def plainChars (start : Mark) : Nat → Folding → Mark → Scanner → Except Fault (Folding × Mark × Scanner)
  | 0, f, stop, s => .ok (f, stop, s)
  | fuel + 1, f, stop, s =>
    let c := s.peek
    if isBlankOrEnd c then .ok (f, stop, s)
    else if s.inFlow && c == ':' && ",?[]\x7b\x7d".contains (s.peekAt 1) then
      .error (s.fault "while scanning a plain scalar" start "found unexpected ':'")
    else if (c == ':' && isBlankOrEnd (s.peekAt 1)) || (s.inFlow && ",[]\x7b\x7d".contains c) then .ok (f, stop, s)
    else
      let f := f.flush
      let s := s.skip
      plainChars start fuel { f with text := f.text.push c } s.mark s

/-- Reads the blanks and breaks after a run of a plain scalar.  After a line
break, a tab before column `indent` is refused. -/
def plainBlanks (start : Mark) (indent : Int) : Nat → Folding → Scanner → Except Fault (Folding × Scanner)
  | 0, f, s => .ok (f, s)
  | fuel + 1, f, s =>
    let c := s.peek
    if isBlank c then
      if f.leadingBlanks && (s.mark.column : Int) < indent && c == '\t' then
        .error (s.fault "while scanning a plain scalar" start "found a tab character that violates indentation")
      else plainBlanks start indent fuel (f.blank c) s.skip
    else if isBreak c then
      let (b, s) := s.readBreak
      plainBlanks start indent fuel (f.lineBreak b) s
    else .ok (f, s)

/-- Reads the lines of a plain scalar, each at least at column `indent` in the
block context, and where its text ends. -/
def plainLines (start : Mark) (indent : Int) : Nat → Folding → Mark → Scanner →
    Except Fault (Folding × Mark × Scanner)
  | 0, f, stop, s => .ok (f, stop, s)
  | fuel + 1, f, stop, s =>
    if s.atDocumentMarker || s.peek == '#' then .ok (f, stop, s)
    else do
      let (f, stop, s) ← plainChars start (s.left + 1) f stop s
      if !(isBlank s.peek || isBreak s.peek) then return (f, stop, s)
      let (f, s) ← plainBlanks start indent (s.left + 1) f s
      if !s.inFlow && (s.mark.column : Int) < indent then return (f, stop, s)
      plainLines start indent fuel f stop s

/-- Scans a plain scalar.  One that ran over a line break leaves a simple key
allowed after it. -/
def scanPlain (s : Scanner) : Except Fault (Token × Scanner) := do
  let start := s.mark
  let (f, stop, s) ← plainLines start (s.indent + 1) (s.left + 1) {} start s
  let s := if f.leadingBlanks then { s with keyAllowed := true } else s
  pure (⟨.scalar f.text .plain, start, stop⟩, s)

/-- What a backslash and the character after it stand for in a double-quoted
scalar. -/
inductive Escape where
  /-- A text of their own. -/
  | text (t : String)
  /-- A code point in this many hexadecimal digits. -/
  | code (digits : Nat)
  /-- No escape. -/
  | unknown

/-- The escape that a character after a backslash starts. -/
def escapeOf (c : Char) : Escape :=
  match c with
  | '0' => .text (String.singleton (Char.ofNat 0))
  | 'a' => .text (String.singleton (Char.ofNat 7))
  | 'b' => .text (String.singleton (Char.ofNat 8))
  | 't' | '\t' => .text "\t"
  | 'n' => .text "\n"
  | 'v' => .text (String.singleton (Char.ofNat 11))
  | 'f' => .text (String.singleton (Char.ofNat 12))
  | 'r' => .text "\r"
  | 'e' => .text (String.singleton (Char.ofNat 27))
  | ' ' => .text " "
  | '"' => .text "\""
  | '/' => .text "/"
  | '\\' => .text "\\"
  | 'N' => .text (String.singleton (Char.ofNat 0x85))
  | '_' => .text (String.singleton (Char.ofNat 0xA0))
  | 'L' => .text (String.singleton (Char.ofNat 0x2028))
  | 'P' => .text (String.singleton (Char.ofNat 0x2029))
  | 'x' => .code 2
  | 'u' => .code 4
  | 'U' => .code 8
  | _ => .unknown

/-- Reads the characters of a quoted scalar up to a blank, a break, the end of
the text or its closing quote, or through an escaped line break. -/
def quotedChars (single : Bool) (start : Mark) : Nat → Folding → Scanner → Except Fault (Folding × Scanner)
  | 0, f, s => .ok (f, s)
  | fuel + 1, f, s =>
    let c := s.peek
    let context := "while parsing a quoted scalar"
    if isBlankOrEnd c then .ok (f, s)
    else if single && c == '\'' && s.peekAt 1 == '\'' then
      quotedChars single start fuel { f with text := f.text.push '\'' } s.skip.skip
    else if c == (if single then '\'' else '"') then .ok (f, s)
    else if !single && c == '\\' && isBreak (s.peekAt 1) then
      .ok ({ f with leadingBlanks := true }, s.skip.skipLine)
    else if !single && c == '\\' then
      match escapeOf (s.peekAt 1) with
      | .text t => quotedChars single start fuel { f with text := f.text ++ t } s.skip.skip
      | .code n =>
        let s := s.skip.skip
        let digits := s.rest.take n
        if digits.length != n || !digits.all isHexChar then
          .error (s.fault context start "did not find expected hexadecimal number")
        else
          let v := hexDigitsValue digits
          if (0xD800 ≤ v && v ≤ 0xDFFF) || 0x10FFFF < v then
            .error (s.fault context start "found invalid Unicode character escape code")
          else
            let s := (List.replicate n ()).foldl (fun s _ => s.skip) s
            quotedChars single start fuel { f with text := f.text.push (Char.ofNat v) } s
      | .unknown => .error (s.fault context start "found unknown escape character")
    else quotedChars single start fuel { f with text := f.text.push c } s.skip

/-- Reads the blanks and breaks inside a quoted scalar. -/
def quotedBlanks : Nat → Folding → Scanner → Folding × Scanner
  | 0, f, s => (f, s)
  | fuel + 1, f, s =>
    let c := s.peek
    if isBlank c then quotedBlanks fuel (f.blank c) s.skip
    else if isBreak c then
      let (b, s) := s.readBreak
      quotedBlanks fuel (f.lineBreak b) s
    else (f, s)

/-- Reads the lines of a quoted scalar up to its closing quote. -/
def quotedLines (single : Bool) (start : Mark) : Nat → Folding → Scanner → Except Fault (Folding × Scanner)
  | 0, f, s => .ok (f, s)
  | fuel + 1, f, s =>
    let context := "while scanning a quoted scalar"
    if s.atDocumentMarker then .error (s.fault context start "found unexpected document indicator")
    else if s.atEnd then .error (s.fault context start "found unexpected end of stream")
    else do
      let (f, s) ← quotedChars single start (s.left + 1) { f with leadingBlanks := false } s
      if s.peek == (if single then '\'' else '"') then return (f, s)
      let (f, s) := quotedBlanks (s.left + 1) f s
      quotedLines single start fuel f.flush s

def scanQuoted (single : Bool) (s : Scanner) : Except Fault (Token × Scanner) := do
  let start := s.mark
  let (f, s) ← quotedLines single start (s.left + 1) {} s.skip
  let s := s.skip
  pure (⟨.scalar f.text (if single then .singleQuoted else .doubleQuoted), start, s.mark⟩, s)

def skipIndent (indent : Nat) : Nat → Scanner → Scanner
  | 0, s => s
  | fuel + 1, s =>
    if (indent == 0 || s.mark.column < indent) && s.peek == ' ' then skipIndent indent fuel s.skip else s

/-- Reads the indentation and the empty lines before a line of a block scalar:
the deepest indentation met, the line breaks, where the last one ends, and the
scanner.  A tab within the indentation is refused. -/
def blockBreaks (start : Mark) (indent : Nat) : Nat → Nat → String → Mark → Scanner →
    Except Fault (Nat × String × Mark × Scanner)
  | 0, deepest, breaks, stop, s => .ok (deepest, breaks, stop, s)
  | fuel + 1, deepest, breaks, stop, s =>
    let s := skipIndent indent (s.left + 1) s
    let deepest := max deepest s.mark.column
    if (indent == 0 || s.mark.column < indent) && s.peek == '\t' then
      .error (s.fault "while scanning a block scalar" start
        "found a tab character where an indentation space is expected")
    else if isBreak s.peek then
      let (b, s) := s.readBreak
      blockBreaks start indent fuel deepest (breaks ++ b) s.mark s
    else .ok (deepest, breaks, stop, s)

/-- The text of a block scalar being read. -/
structure BlockText where
  text : String := ""
  /-- The break after the last line read. -/
  leadingBreak : String := ""
  /-- The empty lines after it. -/
  trailingBreaks : String := ""
  /-- Whether the last line read started with a blank. -/
  leadingBlank : Bool := false

def takeLine : Nat → String → Scanner → String × Scanner
  | 0, acc, s => (acc, s)
  | fuel + 1, acc, s => if isBreakOrEnd s.peek then (acc, s) else takeLine fuel (acc.push s.peek) s.skip

/-- Reads the lines of a block scalar at column `indent`.  In a folded scalar the
break between two lines that start with no blank becomes a space, or goes when
empty lines stand between them. -/
def blockLines (literal : Bool) (start : Mark) (indent : Nat) : Nat → BlockText → Mark → Scanner →
    Except Fault (BlockText × Mark × Scanner)
  | 0, b, stop, s => .ok (b, stop, s)
  | fuel + 1, b, stop, s =>
    if s.mark.column != indent || s.atEnd then .ok (b, stop, s)
    else do
      let startsBlank := isBlank s.peek
      let text :=
        if !literal && b.leadingBreak.startsWith "\n" && !b.leadingBlank && !startsBlank then
          (if b.trailingBreaks.isEmpty then b.text.push ' ' else b.text)
        else b.text ++ b.leadingBreak
      let (line, s) := takeLine (s.left + 1) "" s
      let (br, s) := s.readBreak
      let (_, trailing, stop, s) ← blockBreaks start indent (s.left + 1) 0 "" s.mark s
      blockLines literal start indent fuel
        { text := text ++ b.trailingBreaks ++ line, leadingBreak := br, trailingBreaks := trailing,
          leadingBlank := startsBlank } stop s

/-- The header of a block scalar after its indicator: the chomping (`-1` strip,
`0` clip, `1` keep) and the indentation digit, `0` for none, in either order. -/
def blockHeader (start : Mark) (s : Scanner) : Except Fault (Int × Nat × Scanner) :=
  let chompOf (c : Char) : Int := if c == '+' then 1 else -1
  let zero (s : Scanner) : Fault :=
    s.fault "while scanning a block scalar" start "found an indentation indicator equal to 0"
  let c := s.peek
  if c == '+' || c == '-' then
    let s := s.skip
    if s.peek.isDigit then
      if s.peek == '0' then .error (zero s)
      else .ok (chompOf c, s.peek.toNat - '0'.toNat, s.skip)
    else .ok (chompOf c, 0, s)
  else if c.isDigit then
    if c == '0' then .error (zero s)
    else
      let s := s.skip
      let d := s.peek
      if d == '+' || d == '-' then .ok (chompOf d, c.toNat - '0'.toNat, s.skip)
      else .ok (0, c.toNat - '0'.toNat, s)
  else .ok (0, 0, s)

/-- Scans a literal or folded block scalar. -/
def scanBlock (literal : Bool) (s : Scanner) : Except Fault (Token × Scanner) := do
  let start := s.mark
  let (chomp, increment, s) ← blockHeader start s.skip
  let s := s.skipBlanks
  let s := if s.peek == '#' then s.skipToBreak else s
  if !isBreakOrEnd s.peek then
    throw (s.fault "while scanning a block scalar" start "did not find expected comment or line break")
  let s := if isBreak s.peek then s.skipLine else s
  let given : Nat := if increment = 0 then 0 else (if 0 ≤ s.indent then s.indent.toNat + increment else increment)
  let (deepest, breaks, stop, s) ← blockBreaks start given (s.left + 1) 0 "" s.mark s
  let indent := if given = 0 then (max (max (deepest : Int) (s.indent + 1)) 1).toNat else given
  let (b, stop, s) ← blockLines literal start indent (s.left + 1) { trailingBreaks := breaks } stop s
  let text := b.text ++ (if chomp != -1 then b.leadingBreak else "") ++ (if chomp == 1 then b.trailingBreaks else "")
  pure (⟨.scalar text (if literal then .literal else .folded), start, stop⟩, s)

end Scanner

end Yaml

end DenyPolicy
