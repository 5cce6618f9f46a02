import DenyPolicy.Yaml.Token
/-!
# The state of a YAML scanner

A scanner walks a text character by character and cuts it into tokens, which
wait in a queue until the parser takes them.  Besides its place in the text it
keeps:

* the indentation of the block collections that are open, the innermost in
  `indent` and the others on a stack, so that a line indented less closes
  collections, each with a `blockEnd` token;
* how deep it is inside flow collections `[..]` and `{..}`;
* for each flow level, the *simple key* that may be pending there: a scalar,
  alias or collection that turns into a key once a `:` follows it on the same
  line within 1024 bytes.  When that happens, a `key` token is put into the
  queue in front of it, and in the block context a `blockMappingStart` too if
  the key opens a new mapping.  While a simple key is pending, the tokens from
  it on stay in the queue, since a `key` token may still go in front of them.

The end of the text reads as a NUL character, which no YAML text may hold.
Lines break at line feed, carriage return (alone or before a line feed), NEL,
and the line and paragraph separators.
-/

namespace DenyPolicy

namespace Yaml

def endOfText : Char := Char.ofNat 0

def isBreak (c : Char) : Bool :=
  c = '\r' || c = '\n' || c.toNat = 0x85 || c.toNat = 0x2028 || c.toNat = 0x2029

def isBlank (c : Char) : Bool := c = ' ' || c = '\t'

def isBreakOrEnd (c : Char) : Bool := isBreak c || c = endOfText

def isBlankOrEnd (c : Char) : Bool := isBlank c || isBreakOrEnd c

def isWordChar (c : Char) : Bool := c.isAlphanum || c = '_' || c = '-'

def isHexChar (c : Char) : Bool :=
  c.isDigit || ('a' ≤ c && c ≤ 'f') || ('A' ≤ c && c ≤ 'F')

def hexCharValue (c : Char) : Nat :=
  if c.isDigit then c.toNat - '0'.toNat
  else if 'a' ≤ c && c ≤ 'f' then c.toNat - 'a'.toNat + 10
  else c.toNat - 'A'.toNat + 10

def hexDigitsValue (cs : List Char) : Nat := cs.foldl (fun n c => 16 * n + hexCharValue c) 0

/-- A place where a simple key may start, on one flow level. -/
structure SimpleKey where
  /-- Whether a key may still start here. -/
  possible : Bool := false
  /-- Whether a key must start here: it stands at the indentation of a block mapping. -/
  required : Bool := false
  /-- The number of the token where the key would start, counted over the whole text. -/
  tokenNumber : Nat := 0
  mark : Mark := {}
  deriving Repr, Inhabited

/-- A scanner partway through a text. -/
structure Scanner where
  /-- The text not yet read. -/
  rest : List Char
  /-- The number of characters not yet read. -/
  left : Nat := rest.length
  mark : Mark := {}
  /-- Tokens cut but not yet taken by the parser, first first. -/
  queue : List Token := []
  /-- How many tokens the parser has taken. -/
  taken : Nat := 0
  /-- Whether the token that starts the stream has been cut. -/
  started : Bool := false
  /-- The indentation of the innermost open block collection, `-1` at the top. -/
  indent : Int := -1
  /-- The indentations of the block collections around it, innermost first. -/
  indents : List Int := []
  /-- Whether a simple key may start at the current place. -/
  keyAllowed : Bool := false
  /-- The pending simple key of each flow level, innermost first. -/
  keys : List SimpleKey := []
  /-- How many flow collections are open. -/
  flowLevel : Nat := 0
  deriving Repr

namespace Scanner

def init (text : List Char) : Scanner := { rest := text }

def peek (s : Scanner) : Char := s.rest.headD endOfText

def peekAt (s : Scanner) (k : Nat) : Char := s.rest.getD k endOfText

def atEnd (s : Scanner) : Bool := s.rest.isEmpty

def inFlow (s : Scanner) : Bool := s.flowLevel != 0

def skip (s : Scanner) : Scanner :=
  match s.rest with
  | [] => s
  | c :: r => { s with rest := r, left := s.left - 1, mark := s.mark.next c.utf8Size }

def skipLine (s : Scanner) : Scanner :=
  match s.rest with
  | '\r' :: '\n' :: r => { s with rest := r, left := s.left - 2, mark := s.mark.newline 2 }
  | c :: r =>
    if isBreak c then { s with rest := r, left := s.left - 1, mark := s.mark.newline c.utf8Size } else s
  | [] => s

/-- Reads a line break as it goes into a scalar: the line and paragraph separators
as themselves, every other break as a line feed. -/
def readBreak (s : Scanner) : String × Scanner :=
  let c := s.peek
  if c.toNat = 0x2028 || c.toNat = 0x2029 then (String.singleton c, s.skipLine)
  else if isBreak c then ("\n", s.skipLine)
  else ("", s)

/-- Skips blanks. -/
def skipBlanks (s : Scanner) : Scanner := go s.left s
where
  /-- Skips blanks, at most `fuel` of them. -/
  go : Nat → Scanner → Scanner
    | 0, s => s
    | fuel + 1, s => if isBlank s.peek then go fuel s.skip else s

def skipToBreak (s : Scanner) : Scanner := go s.left s
where
  /-- Skips characters other than breaks, at most `fuel` of them. -/
  go : Nat → Scanner → Scanner
    | 0, s => s
    | fuel + 1, s => if isBreakOrEnd s.peek then s else go fuel s.skip

def takeWord (s : Scanner) : String × Scanner := go s.left "" s
where
  /-- Reads name characters onto `acc`, at most `fuel` of them. -/
  go : Nat → String → Scanner → String × Scanner
    | 0, acc, s => (acc, s)
    | fuel + 1, acc, s => if isWordChar s.peek then go fuel (acc.push s.peek) s.skip else (acc, s)

def fault (s : Scanner) (context : String) (start : Mark) (problem : String) : Fault :=
  .malformed problem s.mark (some (context, start))

def nextNumber (s : Scanner) : Nat := s.taken + s.queue.length

def enqueue (s : Scanner) (t : Token) : Scanner := { s with queue := s.queue ++ [t] }

def insertToken (s : Scanner) (number : Nat) (t : Token) : Scanner :=
  { s with queue := s.queue.insertIdx (number - s.taken) t }

def topKey (s : Scanner) : SimpleKey := s.keys.headD {}

def setTopKey (s : Scanner) (k : SimpleKey) : Scanner :=
  { s with keys := k :: s.keys.tail }

def removeKey (s : Scanner) : Except Fault Scanner :=
  let k := s.topKey
  if k.possible && k.required then
    .error (s.fault "while scanning a simple key" k.mark "could not find expected ':'")
  else .ok (s.setTopKey { k with possible := false })

/-- Notes that a simple key may start at the current place, if one may. -/
def saveKey (s : Scanner) : Except Fault Scanner :=
  if s.keyAllowed then do
    let required := !s.inFlow && s.indent == (s.mark.column : Int)
    let k : SimpleKey := ⟨true, required, s.nextNumber, s.mark⟩
    let s ← s.removeKey
    pure (s.setTopKey k)
  else .ok s

/-- Whether a pending key has gone stale: it lies on an earlier line, or more
than 1024 bytes back. -/
def isStale (s : Scanner) (k : SimpleKey) : Bool :=
  k.possible && (k.mark.line < s.mark.line || k.mark.index + 1024 < s.mark.index)

def dropStaleKeys (s : Scanner) : Except Fault Scanner :=
  match s.keys.reverse.find? fun k => s.isStale k && k.required with
  | some k => .error (s.fault "while scanning a simple key" k.mark "could not find expected ':'")
  | none => .ok { s with keys := s.keys.map fun k => if s.isStale k then { k with possible := false } else k }

def enterFlow (s : Scanner) : Scanner :=
  { s with keys := {} :: s.keys, flowLevel := s.flowLevel + 1 }

def leaveFlow (s : Scanner) : Scanner :=
  if s.flowLevel = 0 then s else { s with keys := s.keys.tail, flowLevel := s.flowLevel - 1 }

/-- In the block context, opens a block collection at `column` if it is deeper
than the current indentation, with a token of kind `kind` at `mark`: at the end
of the queue, or numbered `number`. -/
def rollIndent (s : Scanner) (column : Nat) (number : Option Nat) (kind : TokenKind) (mark : Mark) :
    Scanner :=
  if s.inFlow then s
  else if s.indent < column then
    let s := { s with indents := s.indent :: s.indents, indent := column }
    let t : Token := ⟨kind, mark, mark⟩
    match number with
    | none => s.enqueue t
    | some n => s.insertToken n t
  else s

def closeDeeper (column : Int) (mark : Mark) : Int → List Int → List Token → Int × List Int × List Token
  | indent, [], queue => if column < indent then (-1, [], queue ++ [⟨.blockEnd, mark, mark⟩]) else (indent, [], queue)
  | indent, outer :: rest, queue =>
    if column < indent then closeDeeper column mark outer rest (queue ++ [⟨.blockEnd, mark, mark⟩])
    else (indent, outer :: rest, queue)

def unrollIndent (s : Scanner) (column : Int) : Scanner :=
  if s.inFlow then s
  else
    let (indent, indents, queue) := closeDeeper column s.mark s.indent s.indents s.queue
    { s with indent, indents, queue }

end Scanner

end Yaml

end DenyPolicy
