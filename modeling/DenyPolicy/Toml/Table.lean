import DenyPolicy.Toml.Step
import DenyPolicy.Schema.Basic
/-!
# Tables of a TOML document

While a document is read, its tables are built up key by key.  A table is made
explicitly by a header, implicitly on the way to a deeper header or dotted key,
by a dotted key, or inline; an array of tables grows by one table per header.

`descend` walks a path of keys down from a table, making the missing tables on
the way.  It refuses to pass through a value (a dotted key cannot extend an
integer) and, for a dotted key, through a table that a header made.  The
messages of these clashes are those of TOML readers.
-/

namespace DenyPolicy
namespace Toml

/-- The characters of a document from offset `start` up to `stop`, counted in
characters. -/
structure Span where
  start : Nat
  stop : Nat
  deriving Repr, DecidableEq

/-- A value that is not a table. -/
inductive Value where
  | text (s : String)
  | boolean (b : Bool)
  | integer (n : Int)
  | float (f : Found)
  | datetime
  | array
  deriving Repr

namespace Value

/-- The name of a value's type in messages. -/
def typeName : Value → String
  | .text _ => "string"
  | .boolean _ => "boolean"
  | .integer _ => "integer"
  | .float _ => "float"
  | .datetime => "datetime"
  | .array => "array"

/-- What a reader that expects text reports finding instead: a date or time
reads as a map. -/
def found : Value → Found
  | .text s => .text s
  | .boolean b => .flag b
  | .integer n => .signed n
  | .float f => f
  | .datetime => .map
  | .array => .sequence

end Value

/-- A key as read: its name, its text as written, and where it stands. -/
structure Key where
  name : String
  raw : String
  span : Span
  deriving Repr

/-- What a key holds while a document is read. -/
inductive Node where
  /-- A value other than a table, and where it stands. -/
  | value (v : Value) (span : Span)
  /-- A table: whether it was written inline, whether it was made only on the
  way to another (`implicit`), whether a dotted key made it, where it stands if
  it was written, and its entries in order. -/
  | table (inline implicit dotted : Bool) (span : Option Span) (entries : List (Key × Node))
  /-- An array of tables: where it stands, and its last table, the only one that
  can still grow. -/
  | tables (span : Option Span) (last : List (Key × Node))
  deriving Repr

def Node.typeName : Node → String
  | .value v _ => v.typeName
  | .table true .. => "inline table"
  | .table false .. => "table"
  | .tables .. => "array of tables"

/-- Why a key cannot be added where it is written. -/
inductive Clash where
  /-- The key is already given, in the table with this path if it is named. -/
  | duplicate (key : String) (table : Option (List String))
  /-- A path leads through a value of this type. -/
  | extendsValue (path : List String) (actual : String)
  /-- Keys or values nest too deep. -/
  | tooDeep
  deriving Repr

/-- The message of a clash. -/
def Clash.message : Clash → String
  | .duplicate k none => "duplicate key `" ++ k ++ "`"
  | .duplicate k (some []) => "duplicate key `" ++ k ++ "` in document root"
  | .duplicate k (some t) => "duplicate key `" ++ k ++ "` in table `" ++ ".".intercalate t ++ "`"
  | .extendsValue p a => "dotted key `" ++ ".".intercalate p ++ "` attempted to extend non-table type (" ++ a ++ ")"
  | .tooDeep => "recursion limit exceeded"

abbrev Entries := List (Key × Node)

namespace Entries

def find? (es : Entries) (name : String) : Option Node :=
  (List.find? (·.1.name == name) es).map (·.2)

def replace (es : Entries) (name : String) (n : Node) : Entries :=
  es.map fun (k, m) => if k.name == name then (k, n) else (k, m)

def erase (es : Entries) (name : String) : Entries :=
  es.filter (·.1.name != name)

end Entries

def names (ks : List Key) : List String := ks.map (·.name)

/-- Walks the keys `ks` down from a table of a document whose entries are `es`,
`here` telling whether that table was made by a dotted key, and applies `f` to
the table reached.  A missing key gets an implicit table, made by a dotted key
when `dotted`; a value or an inline table on the way is a clash; an array of
tables is entered at its last table; a table that a header made cannot be
entered by a dotted key.  `whole` is the full path, `i` the place of `ks` in it. -/
def descend {β : Type} (dotted : Bool) (whole : List Key) (f : Bool → Entries → Except Clash (Entries × β)) :
    Nat → Bool → List Key → Entries → Except Clash (Entries × β)
  | _, here, [], es => f here es
  | i, _, k :: ks, es =>
    match es.find? k.name with
    | none => do
      let (inner, b) ← descend dotted whole f (i + 1) dotted ks []
      pure (es ++ [(k, .table false true dotted none inner)], b)
    | some (.value v _) => .error (.extendsValue (names (whole.take (i + 1))) v.typeName)
    | some (.table true ..) => .error (.extendsValue (names (whole.take (i + 1))) "inline table")
    | some (.tables sp last) => do
      let (inner, b) ← descend dotted whole f (i + 1) false ks last
      pure (es.replace k.name (.tables sp inner), b)
    | some (.table false implicit d sp inner) =>
      if dotted && !implicit then .error (.duplicate k.name none)
      else do
        let (inner', b) ← descend dotted whole f (i + 1) d ks inner
        pure (es.replace k.name (.table false implicit d sp inner'), b)

/-- Walks the keys `ks` down inside an inline table: a missing key gets an
implicit table made by a dotted key, an inline table is entered, and anything
else is a clash. -/
def descendInline {β : Type} (whole : List Key) (f : Bool → Entries → Except Clash (Entries × β)) :
    Nat → Bool → List Key → Entries → Except Clash (Entries × β)
  | _, here, [], es => f here es
  | i, _, k :: ks, es =>
    match es.find? k.name with
    | none => do
      let (inner, b) ← descendInline whole f (i + 1) true ks []
      pure (es ++ [(k, .table true true true none inner)], b)
    | some (.table true implicit d sp inner) => do
      let (inner', b) ← descendInline whole f (i + 1) d ks inner
      pure (es.replace k.name (.table true implicit d sp inner'), b)
    | some n => .error (.extendsValue (names (whole.take (i + 1))) n.typeName)

def placeKey (table : Option (List String)) (path : List Key) (k : Key) (n : Node) (here : Bool)
    (es : Entries) : Except Clash (Entries × Unit) :=
  if here == path.isEmpty then .error (.duplicate k.name none)
  else match es.find? k.name with
    | some _ => .error (.duplicate k.name table)
    | none => .ok (es ++ [(k, n)], ())

def inlineEntries (pairs : List (List Key × Key × Node)) : Except Clash Entries :=
  pairs.foldlM (fun es (path, k, n) =>
    (descendInline (path ++ [k]) (placeKey none path k n) 0 false path es).map (·.1)) []

end Toml
end DenyPolicy
