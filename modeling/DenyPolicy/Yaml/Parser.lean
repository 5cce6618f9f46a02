import DenyPolicy.Yaml.Event
import DenyPolicy.Yaml.Scanner.Fetch
/-!
# Parsing tokens into events

The parser is a state machine over the tokens of a stream that yields one event
per step.  Its states say what may come next: a document, a node, the next item
of a block or flow sequence, the next key or value of a mapping.  It keeps a
stack of the states to return to once a node is done, and a stack of the places
where the open collections started, which name them in messages.

The grammar is that of YAML 1.1 and 1.2 streams:

* a document may be preceded by directives and `---`, and followed by `...`;
  a `%YAML` directive must name version 1.1 or 1.2 and may come once; a `%TAG`
  handle may be declared once per document, and `!` and `!!` stand for `!` and
  `tag:yaml.org,2002:` unless declared otherwise;
* a node is an alias, or an anchor and a tag in either order, each optional,
  before a scalar or a collection; properties with no node after them stand for
  an empty scalar;
* a key or value left out is an empty scalar, and a sequence of `-` items may
  stand at the same indentation as the key whose value it is;
* a `?` key inside a flow sequence makes a mapping of one entry.
-/

namespace DenyPolicy

namespace Yaml

/-- Where a parser stands: what it expects next. -/
inductive ParseState where
  | streamStart
  | implicitDocumentStart
  | documentStart
  | documentContent
  | documentEnd
  | blockNode
  | blockSequenceFirstEntry
  | blockSequenceEntry
  | indentlessSequenceEntry
  | blockMappingFirstKey
  | blockMappingKey
  | blockMappingValue
  | flowSequenceFirstEntry
  | flowSequenceEntry
  | flowSequenceEntryMappingKey
  | flowSequenceEntryMappingValue
  | flowSequenceEntryMappingEnd
  | flowMappingFirstKey
  | flowMappingKey
  | flowMappingValue
  | flowMappingEmptyValue
  | finished
  deriving Repr, DecidableEq, Inhabited

/-- A parser partway through a stream. -/
structure Parser where
  scanner : Scanner
  state : ParseState := .streamStart
  /-- The states to return to, innermost first. -/
  states : List ParseState := []
  /-- Where the open collections started, innermost first. -/
  marks : List Mark := []
  /-- The tag handles of the current document and the prefixes they stand for. -/
  handles : List (String × List UInt8) := []
  deriving Repr

namespace Parser

def init (text : List Char) : Parser := { scanner := Scanner.init text }

def peek (p : Parser) : Except Fault (Token × Parser) := do
  let (t, s) ← p.scanner.peekToken
  pure (t, { p with scanner := s })

def skip (p : Parser) : Parser := { p with scanner := p.scanner.takeToken }

def push (p : Parser) (st : ParseState) : Parser := { p with states := st :: p.states }

def pop (p : Parser) : Parser := { p with state := p.states.headD .finished, states := p.states.tail }

def pushMark (p : Parser) (m : Mark) : Parser := { p with marks := m :: p.marks }

def popMark (p : Parser) : Parser := { p with marks := p.marks.tail }

def topMark (p : Parser) : Mark := p.marks.headD {}

def goTo (p : Parser) (st : ParseState) : Parser := { p with state := st }

/-- A bound on the tokens still to come: each unread character starts at most
one, besides those queued and the end of the stream. -/
def budget (p : Parser) : Nat := p.scanner.left + p.scanner.queue.length + 2

def defaultHandles : List (String × List UInt8) :=
  [("!", "!".toUTF8.toList), ("!!", "tag:yaml.org,2002:".toUTF8.toList)]

def directives (p : Parser) : Except Fault Parser := go p.budget none p
where
  /-- Reads directives; `version` holds whether `%YAML` came already. -/
  go : Nat → Option Unit → Parser → Except Fault Parser
    | 0, _, p => .ok p
    | fuel + 1, version, p => do
      let (t, p) ← p.peek
      match t.kind with
      | .versionDirective major minor =>
        if version.isSome then throw (Fault.malformed "found duplicate %YAML directive" t.start none)
        if major != 1 || (minor != 1 && minor != 2) then
          throw (Fault.malformed "found incompatible YAML document" t.start none)
        go fuel (some ()) p.skip
      | .tagDirective handle tagPrefix =>
        if (p.handles.lookup handle).isSome then
          throw (Fault.malformed "found duplicate %TAG directive" t.start none)
        go fuel version { p.skip with handles := p.handles ++ [(handle, tagPrefix)] }
      | _ =>
        pure { p with handles := p.handles ++ defaultHandles.filter fun (h, _) => (p.handles.lookup h).isNone }

/-- Starts a document, or ends the stream.  A document that follows another
without `---` is refused; one at the start of the stream may leave it out. -/
def documentStart (implicit : Bool) (p : Parser) : Except Fault (Event × Parser) := do
  let (t, p) ← p.peek
  let (t, p) ← if implicit then pure (t, p) else skipEnds p.budget t p
  match t.kind with
  | .streamEnd => pure (⟨.streamEnd, t.start⟩, (p.goTo .finished).skip)
  | .versionDirective .. | .tagDirective .. | .documentStart => explicit t.start p
  | _ =>
    if implicit then do
      let p ← p.directives
      pure (⟨.documentStart, t.start⟩, (p.push .documentEnd).goTo .blockNode)
    else explicit t.start p
where
  /-- Skips `...` markers. -/
  skipEnds : Nat → Token → Parser → Except Fault (Token × Parser)
    | 0, t, p => .ok (t, p)
    | fuel + 1, t, p =>
      match t.kind with
      | .documentEnd => do
        let (t, p) ← p.skip.peek
        skipEnds fuel t p
      | _ => .ok (t, p)
  /-- Starts a document that directives or `---` open. -/
  explicit (start : Mark) (p : Parser) : Except Fault (Event × Parser) := do
    let p ← p.directives
    let (t, p) ← p.peek
    match t.kind with
    | .documentStart => pure (⟨.documentStart, start⟩, ((p.push .documentEnd).goTo .documentContent).skip)
    | _ => throw (Fault.malformed "did not find expected <document start>" t.start none)

/-- Parses a node: an alias, or properties and what follows them.  `block` says
whether a block collection may start here, `indentless` whether a sequence of
`-` items may stand at the indentation of its key. -/
def node (block indentless : Bool) (p : Parser) : Except Fault (Event × Parser) := do
  let (t, p) ← p.peek
  match t.kind with
  | .alias name => pure (⟨.alias name, t.start⟩, p.skip.pop)
  | _ =>
    let start := t.start
    let (anchor, tag, tagMark, t, p) ← properties t p
    let tag ← match tag with
      | none => pure none
      | some ("", suffix) => pure (some suffix)
      | some (handle, suffix) =>
        match p.handles.lookup handle with
        | some tagPrefix => pure (some (tagPrefix ++ suffix))
        | none => throw (Fault.malformed "found undefined tag handle" tagMark (some ("while parsing a node", start)))
    match t.kind with
    | .blockEntry =>
      if indentless then pure (⟨.sequenceStart anchor tag, start⟩, p.goTo .indentlessSequenceEntry)
      else empty anchor tag start t p
    | .scalar text style => pure (⟨.scalar anchor tag text style, start⟩, p.skip.pop)
    | .flowSequenceStart => pure (⟨.sequenceStart anchor tag, start⟩, p.goTo .flowSequenceFirstEntry)
    | .flowMappingStart => pure (⟨.mappingStart anchor tag, start⟩, p.goTo .flowMappingFirstKey)
    | .blockSequenceStart =>
      if block then pure (⟨.sequenceStart anchor tag, start⟩, p.goTo .blockSequenceFirstEntry)
      else empty anchor tag start t p
    | .blockMappingStart =>
      if block then pure (⟨.mappingStart anchor tag, start⟩, p.goTo .blockMappingFirstKey)
      else empty anchor tag start t p
    | _ => empty anchor tag start t p
where
  /-- Reads an anchor and a tag in either order, and the token after them. -/
  properties (t : Token) (p : Parser) :
      Except Fault (Option String × Option (String × List UInt8) × Mark × Token × Parser) := do
    match t.kind with
    | .anchor name =>
      let (t2, p) ← p.skip.peek
      match t2.kind with
      | .tag handle suffix =>
        let (t3, p) ← p.skip.peek
        pure (some name, some (handle, suffix), t2.start, t3, p)
      | _ => pure (some name, none, t.start, t2, p)
    | .tag handle suffix =>
      let (t2, p) ← p.skip.peek
      match t2.kind with
      | .anchor name =>
        let (t3, p) ← p.skip.peek
        pure (some name, some (handle, suffix), t.start, t3, p)
      | _ => pure (none, some (handle, suffix), t.start, t2, p)
    | _ => pure (none, none, t.start, t, p)
  /-- An empty scalar with the properties read, or a fault if there are none. -/
  empty (anchor : Option String) (tag : Option (List UInt8)) (start : Mark) (t : Token) (p : Parser) :
      Except Fault (Event × Parser) :=
    if anchor.isSome || tag.isSome then .ok (⟨.scalar anchor tag "" .plain, start⟩, p.pop)
    else .error (.malformed "did not find expected node content" t.start
      (some (if block then "while parsing a block node" else "while parsing a flow node", start)))

/-- The next item of a block sequence, or its end. -/
def blockSequenceEntry (first : Bool) (p : Parser) : Except Fault (Event × Parser) := do
  let p ← if first then do let (t, p) ← p.peek; pure (p.pushMark t.start).skip else pure p
  let (t, p) ← p.peek
  match t.kind with
  | .blockEntry =>
    let (t2, p) ← p.skip.peek
    match t2.kind with
    | .blockEntry | .blockEnd => pure (Event.empty t.stop, p.goTo .blockSequenceEntry)
    | _ => node true false (p.push .blockSequenceEntry)
  | .blockEnd => pure (⟨.sequenceEnd, t.start⟩, p.pop.popMark.skip)
  | _ => throw (Fault.malformed "did not find expected '-' indicator" t.start
      (some ("while parsing a block collection", p.topMark)))

/-- The next item of a sequence of `-` items at the indentation of its key, or
its end. -/
def indentlessSequenceEntry (p : Parser) : Except Fault (Event × Parser) := do
  let (t, p) ← p.peek
  match t.kind with
  | .blockEntry =>
    let (t2, p) ← p.skip.peek
    match t2.kind with
    | .blockEntry | .key | .value | .blockEnd => pure (Event.empty t.stop, p.goTo .indentlessSequenceEntry)
    | _ => node true false (p.push .indentlessSequenceEntry)
  | _ => pure (⟨.sequenceEnd, t.start⟩, p.pop)

/-- The next key of a block mapping, or its end. -/
def blockMappingKey (first : Bool) (p : Parser) : Except Fault (Event × Parser) := do
  let p ← if first then do let (t, p) ← p.peek; pure (p.pushMark t.start).skip else pure p
  let (t, p) ← p.peek
  match t.kind with
  | .key =>
    let (t2, p) ← p.skip.peek
    match t2.kind with
    | .key | .value | .blockEnd => pure (Event.empty t.stop, p.goTo .blockMappingValue)
    | _ => node true true (p.push .blockMappingValue)
  | .blockEnd => pure (⟨.mappingEnd, t.start⟩, p.pop.popMark.skip)
  | _ => throw (Fault.malformed "did not find expected key" t.start
      (some ("while parsing a block mapping", p.topMark)))

/-- The value of a key of a block mapping. -/
def blockMappingValue (p : Parser) : Except Fault (Event × Parser) := do
  let (t, p) ← p.peek
  match t.kind with
  | .value =>
    let (t2, p) ← p.skip.peek
    match t2.kind with
    | .key | .value | .blockEnd => pure (Event.empty t.stop, p.goTo .blockMappingKey)
    | _ => node true true (p.push .blockMappingKey)
  | _ => pure (Event.empty t.start, p.goTo .blockMappingKey)

/-- The next item of a flow sequence, or its end. -/
def flowSequenceEntry (first : Bool) (p : Parser) : Except Fault (Event × Parser) := do
  let p ← if first then do let (t, p) ← p.peek; pure (p.pushMark t.start).skip else pure p
  let (t, p) ← p.peek
  let (t, p) ←
    match t.kind with
    | .flowSequenceEnd => pure (t, p)
    | .flowEntry => if first then pure (t, p) else p.skip.peek
    | _ =>
      if first then pure (t, p)
      else throw (Fault.malformed "did not find expected ',' or ']'" t.start
        (some ("while parsing a flow sequence", p.topMark)))
  match t.kind with
  | .flowSequenceEnd => pure (⟨.sequenceEnd, t.start⟩, p.pop.popMark.skip)
  | .key => pure (⟨.mappingStart none none, t.start⟩, (p.goTo .flowSequenceEntryMappingKey).skip)
  | _ => node false false (p.push .flowSequenceEntry)

def flowSequenceEntryMappingKey (p : Parser) : Except Fault (Event × Parser) := do
  let (t, p) ← p.peek
  match t.kind with
  | .value | .flowEntry | .flowSequenceEnd =>
    pure (Event.empty t.stop, (p.goTo .flowSequenceEntryMappingValue).skip)
  | _ => node false false (p.push .flowSequenceEntryMappingValue)

/-- The value of a mapping of one entry inside a flow sequence. -/
def flowSequenceEntryMappingValue (p : Parser) : Except Fault (Event × Parser) := do
  let (t, p) ← p.peek
  match t.kind with
  | .value =>
    let (t2, p) ← p.skip.peek
    match t2.kind with
    | .flowEntry | .flowSequenceEnd => pure (Event.empty t2.start, p.goTo .flowSequenceEntryMappingEnd)
    | _ => node false false (p.push .flowSequenceEntryMappingEnd)
  | _ => pure (Event.empty t.start, p.goTo .flowSequenceEntryMappingEnd)

/-- The next key of a flow mapping, or its end. -/
def flowMappingKey (first : Bool) (p : Parser) : Except Fault (Event × Parser) := do
  let p ← if first then do let (t, p) ← p.peek; pure (p.pushMark t.start).skip else pure p
  let (t, p) ← p.peek
  let (t, p) ←
    match t.kind with
    | .flowMappingEnd => pure (t, p)
    | .flowEntry => if first then pure (t, p) else p.skip.peek
    | _ =>
      if first then pure (t, p)
      else throw (Fault.malformed "did not find expected ',' or '\x7d'" t.start
        (some ("while parsing a flow mapping", p.topMark)))
  match t.kind with
  | .flowMappingEnd => pure (⟨.mappingEnd, t.start⟩, p.pop.popMark.skip)
  | .key =>
    let (t2, p) ← p.skip.peek
    match t2.kind with
    | .value | .flowEntry | .flowMappingEnd => pure (Event.empty t2.start, p.goTo .flowMappingValue)
    | _ => node false false (p.push .flowMappingValue)
  | _ => node false false (p.push .flowMappingEmptyValue)

/-- The value of a key of a flow mapping; `empty` when the key had no `?` and no
`:` can follow. -/
def flowMappingValue (empty : Bool) (p : Parser) : Except Fault (Event × Parser) := do
  let (t, p) ← p.peek
  if empty then return (Event.empty t.start, p.goTo .flowMappingKey)
  match t.kind with
  | .value =>
    let (t2, p) ← p.skip.peek
    match t2.kind with
    | .flowEntry | .flowMappingEnd => pure (Event.empty t2.start, p.goTo .flowMappingKey)
    | _ => node false false (p.push .flowMappingKey)
  | _ => pure (Event.empty t.start, p.goTo .flowMappingKey)

/-- The next event of the stream. -/
def next (p : Parser) : Except Fault (Event × Parser) :=
  match p.state with
  | .streamStart => do
    let (t, p) ← p.peek
    match t.kind with
    | .streamStart => pure (⟨.streamStart, t.start⟩, (p.goTo .implicitDocumentStart).skip)
    | _ => throw (Fault.malformed "did not find expected <stream-start>" t.start none)
  | .implicitDocumentStart => documentStart true p
  | .documentStart => documentStart false p
  | .documentContent => do
    let (t, p) ← p.peek
    match t.kind with
    | .versionDirective .. | .tagDirective .. | .documentStart | .documentEnd | .streamEnd =>
      pure (Event.empty t.start, p.pop)
    | _ => node true false p
  | .documentEnd => do
    let (t, p) ← p.peek
    let p := match t.kind with
      | .documentEnd => p.skip
      | _ => p
    pure (⟨.documentEnd, t.start⟩, { p with handles := [], state := .documentStart })
  | .blockNode => node true false p
  | .blockSequenceFirstEntry => blockSequenceEntry true p
  | .blockSequenceEntry => blockSequenceEntry false p
  | .indentlessSequenceEntry => indentlessSequenceEntry p
  | .blockMappingFirstKey => blockMappingKey true p
  | .blockMappingKey => blockMappingKey false p
  | .blockMappingValue => blockMappingValue p
  | .flowSequenceFirstEntry => flowSequenceEntry true p
  | .flowSequenceEntry => flowSequenceEntry false p
  | .flowSequenceEntryMappingKey => flowSequenceEntryMappingKey p
  | .flowSequenceEntryMappingValue => flowSequenceEntryMappingValue p
  | .flowSequenceEntryMappingEnd => do
    let (t, p) ← p.peek
    pure (⟨.mappingEnd, t.start⟩, p.goTo .flowSequenceEntry)
  | .flowMappingFirstKey => flowMappingKey true p
  | .flowMappingKey => flowMappingKey false p
  | .flowMappingValue => flowMappingValue false p
  | .flowMappingEmptyValue => flowMappingValue true p
  | .finished => do
    let (t, p) ← p.peek
    pure (⟨.streamEnd, t.start⟩, p)

end Parser

end Yaml

end DenyPolicy
