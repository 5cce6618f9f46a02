import DenyPolicy.Toml.Value
/-!
# Reading TOML documents

A reader for the TOML documents that hold settings.  It reads a document line
by line: blank and comment lines, key-value lines, and table headers `[a.b]`
and `[[a.b]]`, building the document's tables as `Toml.Table` describes, and
keeps what a flat table of settings needs: the entries of the root table in
order, each with its key, its value as text or as the kind of value it is, and
where both stand.

A header's table is filled by the key-value lines after it and takes its place
in its parent when the next header comes or the document ends; a table made
implicitly before, by a deeper header, is taken up again by its own header and
moves to the end of its parent.  A header that names a value, a table already
written, or an array of tables where a table stands (or the other way round) is
refused at its `[`; a key given twice in a table is refused at its line.

A fault points at the characters it concerns and is shown as TOML readers show
it: the line and column, the line itself with the characters marked under it,
and the message.
-/

namespace DenyPolicy

namespace Toml

/-- What a key of the root table holds, as a reader of settings sees it: text,
or what a message says stands there instead. -/
inductive Held where
  | text (s : String)
  | other (found : Found)
  deriving Repr

/-- An entry of the root table, with the spans of its key and of its value. -/
structure Entry where
  key : String
  keySpan : Span
  value : Held
  valueSpan : Span
  deriving Repr

/-- Why a document cannot be read, and the characters that show it. -/
structure Fault where
  message : String
  span : Span
  deriving Repr

/-- The tables of a document being read. -/
structure Tables where
  /-- The root table, once the first header has been met. -/
  root : Entries := []
  /-- The entries of the table that key-value lines fill. -/
  current : Entries := []
  /-- The path of the current table's header, empty for the root table. -/
  path : List Key := []
  /-- Whether the current table belongs to an array of tables. -/
  inArray : Bool := false
  /-- Where the current table stands: from its header to its last value. -/
  span : Option Span := none

/-- The default key, for a path that has none. -/
def Key.none : Key := ⟨"", "", ⟨0, 0⟩⟩

namespace Tables

/-- Puts the current table in its place: the root table, or the table its
header names, as a new table or the next of an array of tables. -/
def finish (t : Tables) : Except Clash Tables :=
  match t.path.getLast? with
  | none => .ok { t with root := t.current, current := [] }
  | some last =>
    let pre := t.path.dropLast
    let place (_ : Bool) (es : Entries) : Except Clash (Entries × Unit) :=
      match t.inArray, es.find? last.name with
      | true, some (.tables sp _) =>
        let span := match sp, t.span with
          | some a, some b => some ⟨a.start, b.stop⟩
          | none, s => s
          | s, none => s
        .ok (es.replace last.name (.tables span t.current), ())
      | true, none => .ok (es ++ [(last, .tables t.span t.current)], ())
      | false, some (.table false true _ _ _) =>
        .ok (es.replace last.name (.table false false false t.span t.current), ())
      | false, none => .ok (es ++ [(last, .table false false false t.span t.current)], ())
      | _, some _ => .error (.duplicate last.raw (some (names pre)))
    do
      let (root, ()) ← descend false t.path place 0 false pre t.root
      pure { root }

/-- Opens the table of a header `[path]`: a table made implicitly on the way to
another is taken up again, anything else under that key is a clash. -/
def openTable (t : Tables) (path : List Key) (span : Span) : Except Clash Tables := do
  let t ← t.finish
  let last := path.getLastD Key.none
  let pre := path.dropLast
  let take (_ : Bool) (es : Entries) : Except Clash (Entries × Entries) :=
    match es.find? last.name with
    | none => .ok (es, [])
    | some (.table false true false _ inner) => .ok (es.erase last.name, inner)
    | some _ => .error (.duplicate last.raw (some (names pre)))
  let (root, current) ← descend false path take 0 false pre t.root
  pure { root, current, path, inArray := false, span := some span }

/-- Opens the next table of a header `[[path]]`: the key must hold an array of
tables or nothing. -/
def openArrayTable (t : Tables) (path : List Key) (span : Span) : Except Clash Tables := do
  let t ← t.finish
  let last := path.getLastD Key.none
  let pre := path.dropLast
  let make (_ : Bool) (es : Entries) : Except Clash (Entries × Unit) :=
    match es.find? last.name with
    | none => .ok (es ++ [(last, .tables none [])], ())
    | some (.tables ..) => .ok (es, ())
    | some _ => .error (.duplicate last.raw (some (names pre)))
  let (root, ()) ← descend false path make 0 false pre t.root
  pure { root, current := [], path, inArray := true, span := some span }

/-- Adds a key-value line to the current table: the dotted keys before the last
lead to the table that gets it. -/
def addPair (t : Tables) (path : List Key) (k : Key) (n : Node) (valueEnd : Option Nat) :
    Except Clash Tables := do
  let span := match t.span, valueEnd with
    | some s, some e => some ⟨s.start, e⟩
    | s, _ => s
  let (current, ()) ← descend true (path ++ [k]) (placeKey (some (names t.path)) path k n) 0 false path t.current
  pure { t with current, span }

end Tables

def Node.stop? : Node → Option Nat
  | .value _ sp => some sp.stop
  | .table _ _ _ sp _ => sp.map (·.stop)
  | .tables sp _ => sp.map (·.stop)

def header (total : Nat) (close : List Char) (cs : List Char) : Except Failure ((List Key) × List Char) :=
  Step.label "table header" do
    let (ks, r) ← Step.commit (key total cs)
    if close.isPrefixOf r then pure (ks, r.drop close.length)
    else .error { fatal := true, expected := ["`.`", "`" ++ String.ofList close ++ "`"], rest := r }

/-- Reads the lines of a document into its tables.  Offsets are counted from
`total`, the length of the whole document; `fuel` bounds the lines, each of which
takes at least one character. -/
def statements (total : Nat) : Nat → Tables → List Char → Except Failure Tables
  | 0, t, _ => .ok t
  | fuel + 1, t, cs =>
    let cs := ws cs
    let trailing (r : List Char) : Except Failure (Unit × List Char) :=
      (lineTrailing r).mapError fun f => { f with fatal := true, expected := f.expected ++ ["newline", "`#`"] }
    match cs with
    | [] => .ok t
    | '#' :: _ =>
      let r := (comment? cs).getD cs
      match r with
      | [] => .ok t
      | _ =>
        match newline? r with
        | some r' => statements total fuel t r'
        | none => .error (.stop r)
    | '\n' :: r => statements total fuel t r
    | '\r' :: '\n' :: r => statements total fuel t r
    | '\r' :: _ => .error (.miss cs)
    | '[' :: r =>
      let (close, body, open_) : List Char × List Char × (Tables → List Key → Span → Except Clash Tables) :=
        match r with
        | '[' :: r' => ([']', ']'], r', Tables.openArrayTable)
        | _ => ([']'], r, Tables.openTable)
      match header total close body with
      | .error f => .error f
      | .ok (ks, r1) =>
        match Step.label "table header" (trailing r1) with
        | .error f => .error f
        | .ok ((), r2) =>
          match open_ t ks (spanOf total cs r1) with
          | .error c => .error { fatal := true, labels := ["table header"], cause := some c.message, rest := cs }
          | .ok t' => statements total fuel t' r2
    | _ =>
      match key total cs with
      | .error f => .error { f with fatal := true }
      | .ok (ks, r) =>
        match r with
        | '=' :: r1 =>
          let start := ws r1
          match value total 0 (4 * start.length + 16) start with
          | .error f => .error { f with fatal := true }
          | .ok (n, r2) =>
            match trailing r2 with
            | .error f => .error f
            | .ok ((), r3) =>
              match t.addPair ks.dropLast (ks.getLastD Key.none) n n.stop? with
              | .error c => .error { fatal := true, cause := some c.message, rest := cs }
              | .ok t' => statements total fuel t' r3
        | _ => .error { fatal := true, expected := ["`.`", "`=`"], rest := r }

/-- The entries of the root table as a reader of settings sees them: a table
without a place of its own stands where its key does. -/
def rootEntries (root : Entries) : List Entry :=
  root.map fun (k, n) =>
    match n with
    | .value (.text s) sp => ⟨k.name, k.span, .text s, sp⟩
    | .value v sp => ⟨k.name, k.span, .other v.found, sp⟩
    | .table _ _ _ sp _ => ⟨k.name, k.span, .other .map, sp.getD k.span⟩
    | .tables sp _ => ⟨k.name, k.span, .other .sequence, sp.getD k.span⟩

/-- Reads a document into the entries of its root table, in order.  A byte order
mark before it is skipped. -/
def read (text : String) : Except Fault (List Entry) := do
  let cs := text.toList
  let (cs, offset) := match cs with
    | '\uFEFF' :: r => (r, 1)
    | r => (r, 0)
  let total := cs.length + offset
  let at_ (r : List Char) : Span := ⟨total - r.length, total - r.length + 1⟩
  let t ← (statements total (cs.length + 1) {} cs).mapError fun f => ⟨f.message, at_ f.rest⟩
  let t ← t.finish.mapError fun c => ⟨c.message, at_ []⟩
  pure (rootEntries t.root)

/-- Shows a fault in the text it concerns: the line and column where its span
starts, the line with the span marked under it, and the message.  A span at the
end of the document stands just after its last character, on that character's
line.  Columns count characters from one, or bytes when the span starts at a
character of more than one byte; the marks count the span's bytes, at least one,
and run at most to the end of the line. -/
def Fault.render (text : String) (f : Fault) : String :=
  let cs := text.toList
  let place := min f.span.start (cs.length - 1)
  let past := f.span.start - place
  let before := cs.take place
  let line := (before.filter (· = '\n')).length
  let lead := before.reverse.takeWhile (· ≠ '\n')
  let column :=
    (if past = 0 ∧ (cs.drop place).head?.any (fun c => c.toNat ≥ 0x80) then (String.ofList lead).utf8ByteSize
     else lead.length) + past
  let content := ((text.splitOn "\n")[line]?).getD ""
  let spanBytes := (String.ofList ((cs.drop f.span.start).take (f.span.stop - f.span.start))).utf8ByteSize
  let marks := max 1 (min spanBytes (content.utf8ByteSize - column))
  let number := toString (line + 1)
  let pad := String.ofList (List.replicate (number.length + 1) ' ')
  "TOML parse error at line " ++ number ++ ", column " ++ toString (column + 1) ++ "\n" ++
    pad ++ "|\n" ++
    number ++ " | " ++ content ++ "\n" ++
    pad ++ "|" ++ String.ofList (List.replicate (column + 1) ' ') ++ String.ofList (List.replicate marks '^') ++ "\n" ++
    f.message ++ "\n"

end Toml

end DenyPolicy
