import DenyPolicy.Yaml.Scanner.Scalar
import DenyPolicy.Yaml.Scanner.Property
/-!
# Cutting tokens on demand

The parser asks for one token at a time.  The scanner cuts tokens until the
first in its queue can no longer get a `key` token in front of it, that is,
until no simple key is pending at the head of the queue, and then hands it over.

Before each token it skips blanks, comments and line breaks; in the block
context a tab may only be skipped where no simple key is allowed, so that a tab
never indents.  Each line break in the block context allows a simple key again.
Then it checks which pending keys have gone stale, closes the block collections
deeper than the current column, and cuts one token by its first character.
-/

namespace DenyPolicy

namespace Yaml

namespace Scanner

/-- Skips blanks, comments and line breaks up to the next token; a byte order
mark is skipped at the start of a line. -/
def skipToToken : Nat → Scanner → Scanner
  | 0, s => s
  | fuel + 1, s =>
    let s := if s.mark.column == 0 && s.peek.toNat == 0xFEFF then s.skip else s
    let s := skipSpaces s.left s
    let s := if s.peek == '#' then s.skipToBreak else s
    if isBreak s.peek then
      let s := s.skipLine
      skipToToken fuel (if s.inFlow then s else { s with keyAllowed := true })
    else s
where
  /-- Skips spaces, and tabs where the scanner is in a flow collection or no
  simple key is allowed. -/
  skipSpaces : Nat → Scanner → Scanner
    | 0, s => s
    | fuel + 1, s =>
      if s.peek == ' ' || ((s.inFlow || !s.keyAllowed) && s.peek == '\t') then skipSpaces fuel s.skip
      else s

def fetchStreamStart (s : Scanner) : Scanner :=
  { s with indent := -1, keys := [{}], keyAllowed := true, started := true }.enqueue ⟨.streamStart, s.mark, s.mark⟩

def fetchStreamEnd (s : Scanner) : Except Fault Scanner := do
  let s := if s.mark.column != 0 then { s with mark := { s.mark with column := 0, line := s.mark.line + 1 } } else s
  let s := s.unrollIndent (-1)
  let s ← s.removeKey
  let s := { s with keyAllowed := false }
  pure (s.enqueue ⟨.streamEnd, s.mark, s.mark⟩)

def fetchDirective (s : Scanner) : Except Fault Scanner := do
  let s := s.unrollIndent (-1)
  let s ← s.removeKey
  let (t, s) ← { s with keyAllowed := false }.scanDirective
  pure (s.enqueue t)

def fetchDocumentMarker (kind : TokenKind) (s : Scanner) : Except Fault Scanner := do
  let s := s.unrollIndent (-1)
  let s ← s.removeKey
  let start := s.mark
  let s := { s with keyAllowed := false }.skip.skip.skip
  pure (s.enqueue ⟨kind, start, s.mark⟩)

def fetchFlowStart (kind : TokenKind) (s : Scanner) : Except Fault Scanner := do
  let s ← s.saveKey
  let s := { s.enterFlow with keyAllowed := true }
  let start := s.mark
  let s := s.skip
  pure (s.enqueue ⟨kind, start, s.mark⟩)

def fetchFlowEnd (kind : TokenKind) (s : Scanner) : Except Fault Scanner := do
  let s ← s.removeKey
  let s := { s.leaveFlow with keyAllowed := false }
  let start := s.mark
  let s := s.skip
  pure (s.enqueue ⟨kind, start, s.mark⟩)

def fetchFlowEntry (s : Scanner) : Except Fault Scanner := do
  let s ← s.removeKey
  let s := { s with keyAllowed := true }
  let start := s.mark
  let s := s.skip
  pure (s.enqueue ⟨.flowEntry, start, s.mark⟩)

/-- Cuts `-` before an item of a block sequence, which may open the sequence. -/
def fetchBlockEntry (s : Scanner) : Except Fault Scanner := do
  let s ←
    if s.inFlow then pure s
    else if !s.keyAllowed then
      throw (Fault.malformed "block sequence entries are not allowed in this context" s.mark none)
    else pure (s.rollIndent s.mark.column none .blockSequenceStart s.mark)
  let s ← s.removeKey
  let s := { s with keyAllowed := true }
  let start := s.mark
  let s := s.skip
  pure (s.enqueue ⟨.blockEntry, start, s.mark⟩)

/-- Cuts `?` before a key, which may open a block mapping. -/
def fetchKey (s : Scanner) : Except Fault Scanner := do
  let s ←
    if s.inFlow then pure s
    else if !s.keyAllowed then
      throw (Fault.malformed "mapping keys are not allowed in this context" s.mark none)
    else pure (s.rollIndent s.mark.column none .blockMappingStart s.mark)
  let s ← s.removeKey
  let s := { s with keyAllowed := !s.inFlow }
  let start := s.mark
  let s := s.skip
  pure (s.enqueue ⟨.key, start, s.mark⟩)

/-- Cuts `:` before a value.  After a pending simple key, a `key` token goes in
front of the key, with a `blockMappingStart` before it if the key opens a
mapping; otherwise the value follows a `?` key, or an empty one. -/
def fetchValue (s : Scanner) : Except Fault Scanner := do
  let k := s.topKey
  let s ←
    if k.possible then
      let s := s.insertToken k.tokenNumber ⟨.key, k.mark, k.mark⟩
      let s := s.rollIndent k.mark.column (some k.tokenNumber) .blockMappingStart k.mark
      pure { s.setTopKey { k with possible := false } with keyAllowed := false }
    else do
      let s ←
        if s.inFlow then pure s
        else if !s.keyAllowed then
          throw (Fault.malformed "mapping values are not allowed in this context" s.mark none)
        else pure (s.rollIndent s.mark.column none .blockMappingStart s.mark)
      pure { s with keyAllowed := !s.inFlow }
  let start := s.mark
  let s := s.skip
  pure (s.enqueue ⟨.value, start, s.mark⟩)

def fetchKeyCandidate (scan : Scanner → Except Fault (Token × Scanner)) (s : Scanner) : Except Fault Scanner := do
  let s ← s.saveKey
  let (t, s) ← scan { s with keyAllowed := false }
  pure (s.enqueue t)

def fetchBlockScalar (literal : Bool) (s : Scanner) : Except Fault Scanner := do
  let s ← s.removeKey
  let (t, s) ← { s with keyAllowed := true }.scanBlock literal
  pure (s.enqueue t)

def startsPlain (s : Scanner) : Bool :=
  let c := s.peek
  let next := s.peekAt 1
  !(isBlankOrEnd c || "-?:,[]\x7b\x7d#&*!|>'\"%@\x60".contains c) ||
    (c == '-' && !isBlank next) ||
    (!s.inFlow && (c == '?' || c == ':') && !isBlankOrEnd next)

/-- Cuts the next token, with the block ends that come before it. -/
def fetchNext (s : Scanner) : Except Fault Scanner := do
  if !s.started then return s.fetchStreamStart
  let s := skipToToken (s.left + 1) s
  let s ← s.dropStaleKeys
  let s := s.unrollIndent s.mark.column
  let c := s.peek
  let atLineStart := s.mark.column == 0
  let marker (d : Char) : Bool :=
    atLineStart && s.peekAt 0 == d && s.peekAt 1 == d && s.peekAt 2 == d && isBlankOrEnd (s.peekAt 3)
  if s.atEnd then s.fetchStreamEnd
  else if atLineStart && c == '%' then s.fetchDirective
  else if marker '-' then s.fetchDocumentMarker .documentStart
  else if marker '.' then s.fetchDocumentMarker .documentEnd
  else if c == '[' then s.fetchFlowStart .flowSequenceStart
  else if c == '\x7b' then s.fetchFlowStart .flowMappingStart
  else if c == ']' then s.fetchFlowEnd .flowSequenceEnd
  else if c == '\x7d' then s.fetchFlowEnd .flowMappingEnd
  else if c == ',' then s.fetchFlowEntry
  else if c == '-' && isBlankOrEnd (s.peekAt 1) then s.fetchBlockEntry
  else if c == '?' && (s.inFlow || isBlankOrEnd (s.peekAt 1)) then s.fetchKey
  else if c == ':' && (s.inFlow || isBlankOrEnd (s.peekAt 1)) then s.fetchValue
  else if c == '*' then s.fetchKeyCandidate (scanAnchor true)
  else if c == '&' then s.fetchKeyCandidate (scanAnchor false)
  else if c == '!' then s.fetchKeyCandidate scanTag
  else if c == '|' && !s.inFlow then s.fetchBlockScalar true
  else if c == '>' && !s.inFlow then s.fetchBlockScalar false
  else if c == '\'' then s.fetchKeyCandidate (scanQuoted true)
  else if c == '"' then s.fetchKeyCandidate (scanQuoted false)
  else if s.startsPlain then s.fetchKeyCandidate scanPlain
  else throw (s.fault "while scanning for the next token" s.mark "found character that cannot start any token")

def headPending (s : Scanner) : Bool :=
  s.keys.any fun k => k.possible && k.tokenNumber == s.taken

/-- Cuts tokens until the head of the queue is settled. -/
def fetchMore : Nat → Scanner → Except Fault Scanner
  | 0, s => .ok s
  | fuel + 1, s => do
    if s.queue.isEmpty then fetchMore fuel (← s.fetchNext)
    else
      let s ← s.dropStaleKeys
      if s.headPending then fetchMore fuel (← s.fetchNext) else pure s

def peekToken (s : Scanner) : Except Fault (Token × Scanner) := do
  let s ← fetchMore (s.left + 4) s
  match s.queue with
  | t :: _ => pure (t, s)
  | [] => throw (Fault.malformed "found unexpected end of stream" s.mark none)

def takeToken (s : Scanner) : Scanner := { s with queue := s.queue.tail, taken := s.taken + 1 }

end Scanner

end Yaml

end DenyPolicy
