import DenyPolicy.Yaml.Parser
import DenyPolicy.Yaml.Scalar
import DenyPolicy.Schema.Basic
/-!
# Composing a document into a value

The events of the first document of a stream are gathered.  Each anchor gets
a number, the count of distinct names met before it, and an alias refers to the
number its name has when the alias is met; the node a number stands for is the
last one anchored under it in the whole document, so a name anchored again may
hand its number to a later new name.  A fault of the syntax, or an alias to a
name not anchored yet, ends the gathering there.

The value is then built from the events in document order:

* a scalar, sequence or mapping under a local tag `!name` becomes a tagged
  value, whose content is built as if untagged; a key of a mapping built that
  way ignores its own local tag;
* a scalar under a tag of the core schema (`!!bool`, `!!int`, `!!float`,
  `!!null`) must read as a value of that kind; under any other tag it is text,
  unless the tag is local and the scalar plain;
  with no tag a plain scalar is resolved and any other is text;
* sequences and mappings nest at most 128 deep, the document's own node
  counting; an alias counts as the node it names, and at most a hundred
  aliases per event may be followed in all;
* a mapping may not hold two equal keys; the fault names the key met first,
  which differs from the second only for the two zeros.

A fault found while building names the place of the node where it was found,
and its path from the root: `a.b` for the value of key `b` in the value of key
`a`, `[0]` for an item, `?` for the value of a key that is not a scalar.  When
the events were cut short by a fault of the syntax, building that runs into the
cut reports that fault; one that finishes still reports it.
-/

namespace DenyPolicy

namespace Yaml

/-- Where a value stands in its document. -/
inductive Path where
  | root
  /-- An item of a sequence. -/
  | item (parent : Path) (index : Nat)
  /-- The value of a scalar key of a mapping. -/
  | member (parent : Path) (key : String)
  /-- The node an alias names. -/
  | alias (parent : Path)
  /-- The value of a key that is not a scalar. -/
  | unknown (parent : Path)
  deriving Repr, Inhabited

mutual
/-- A path as messages write it. -/
def Path.render : Path → String
  | .root => "."
  | .item p i => p.render ++ "[" ++ toString i ++ "]"
  | .member p k => p.parentPrefix ++ k
  | .alias p => p.render
  | .unknown p => p.parentPrefix ++ "?"

def Path.parentPrefix : Path → String
  | .root => ""
  | p => p.render ++ "."
end

/-- Why a text does not load as a YAML value. -/
inductive LoadFault where
  /-- The text is not a well-formed YAML stream. -/
  | stream (f : Fault)
  /-- A value does not fit, at the node and path given when they are known. -/
  | mismatch (message : String) (place : Option (Mark × Path))
  | recursionLimit (mark : Mark)
  | repetitionLimit
  | unknownAnchor (mark : Mark)
  | moreThanOneDocument
  | endOfStream
  deriving Repr, Inhabited

namespace LoadFault

def locate (mark : Mark) (path : Path) : LoadFault → LoadFault
  | .mismatch m none => .mismatch m (some (mark, path))
  | f => f

def placeText (m : Mark) : String := if m.isOrigin then "" else " at " ++ m.render

/-- The message of a fault. -/
def message : LoadFault → String
  | .stream f => f.message
  | .mismatch m none => m
  | .mismatch m (some (mark, path)) =>
    let p := path.render
    (if p == "." then "" else p ++ ": ") ++ m ++ placeText mark
  | .recursionLimit mark => "recursion limit exceeded" ++ placeText mark
  | .repetitionLimit => "repetition limit exceeded"
  | .unknownAnchor mark => "unknown anchor" ++ placeText mark
  | .moreThanOneDocument => "deserializing from YAML containing more than one document is not supported"
  | .endOfStream => "EOF while parsing a value"

end LoadFault

/-- An event of a gathered document. -/
inductive Piece where
  /-- An alias, by the number of the anchor it names. -/
  | alias (anchor : Nat)
  | scalar (tag : Option (List UInt8)) (text : String) (style : ScalarStyle)
  | sequenceStart (tag : Option (List UInt8))
  | sequenceEnd
  | mappingStart (tag : Option (List UInt8))
  | mappingEnd
  /-- The stand-in for a stream with no document. -/
  | void
  deriving Repr, Inhabited

/-- The events of a document, where each numbered anchor stands, and the fault
that cut the events short, if any. -/
structure Document where
  pieces : Array (Piece × Mark) := #[]
  /-- The index of the event that each anchor number names, the latest first. -/
  targets : List (Nat × Nat) := []
  fault : Option LoadFault := none
  deriving Repr, Inhabited

abbrev AnchorNames := List (String × Nat)

/-- Names the event about to be added with `anchor`.  Its number is the count of
names met so far, counted before the name is added, so a name met again takes
a number that the next new name will take too, and whichever of the two comes
last owns it. -/
def nameAnchor (anchor : Option String) (names : AnchorNames) (doc : Document) : AnchorNames × Document :=
  match anchor with
  | some name =>
    let number := names.length
    ((name, number) :: names.filter (·.1 != name),
      { doc with targets := (number, doc.pieces.size) :: doc.targets })
  | none => (names, doc)

/-- Gathers the events of the first document of a stream.  Gives the document
and, when it ended with its own end rather than the stream's or a fault, the
parser after it. -/
def gather : Nat → Parser → AnchorNames → Document → Document × Option Parser
  | 0, _, _, doc => ({ doc with fault := some .endOfStream }, none)
  | fuel + 1, p, names, doc =>
    match p.next with
    | .error f => ({ doc with fault := some (.stream f) }, none)
    | .ok (e, p) =>
      let add (piece : Piece) (anchor : Option String) : Document × Option Parser :=
        let (names, doc) := nameAnchor anchor names doc
        gather fuel p names { doc with pieces := doc.pieces.push (piece, e.mark) }
      match e.kind with
      | .streamStart | .documentStart => gather fuel p names doc
      | .streamEnd =>
        (if doc.pieces.isEmpty then { doc with pieces := #[(.void, e.mark)] } else doc, none)
      | .documentEnd => (doc, some p)
      | .alias name =>
        match names.lookup name with
        | some number => add (.alias number) none
        | none => ({ doc with fault := some (.unknownAnchor e.mark) }, none)
      | .scalar anchor tag text style => add (.scalar tag text style) anchor
      | .sequenceStart anchor tag => add (.sequenceStart tag) anchor
      | .sequenceEnd => add .sequenceEnd none
      | .mappingStart anchor tag => add (.mappingStart tag) anchor
      | .mappingEnd => add .mappingEnd none

def moreDocuments (p : Parser) : Bool :=
  match p.next with
  | .ok (e, _) => match e.kind with
    | .streamEnd => false
    | _ => true
  | .error _ => true

def localTag? : Option (List UInt8) → Option String
  | some (33 :: rest) => String.fromUTF8? ⟨(if rest.isEmpty then [33] else rest).toArray⟩
  | _ => none

def coreTag (name : String) : List UInt8 := ("tag:yaml.org,2002:" ++ name).toUTF8.toList

def notA (text what : String) : LoadFault :=
  .mismatch ((Mismatch.invalidValue (.text text) what).message .plain) none

/-- The value of a scalar: under a tag of the core schema the value it names,
under another tag text, and with no tag (or inside a tagged value) the resolved
text if it is plain. -/
def scalarValue (tag : Option (List UInt8)) (text : String) (style : ScalarStyle) (inTagged : Bool) :
    Except LoadFault Yaml :=
  let resolve : Except LoadFault Yaml := (resolvePlain text).mapError fun m => .mismatch m none
  match tag, inTagged with
  | some t, false =>
    if t == coreTag "bool" then
      match boolValue? text with
      | some b => .ok (.bool b)
      | none => .error (notA text "a boolean")
    else if t == coreTag "int" then
      match intValue? text.toList with
      | .ok (some v) => .ok v
      | .ok none => .error (notA text "an integer")
      | .error m => .error (.mismatch m none)
    else if t == coreTag "float" then
      match floatValue? text.toList with
      | some v => .ok v
      | none => .error (notA text "a float")
    else if t == coreTag "null" then
      if namesNull text then .ok .null else .error (notA text "null")
    else if t.head? == some 33 && style == .plain then resolve
    else .ok (.str text)
  | _, _ => if style == .plain then resolve else .ok (.str text)

/-- The message of a repeated mapping key. -/
def duplicateKeyMessage : Yaml → String
  | .null => "duplicate entry with null key"
  | .bool b => "duplicate entry with key `" ++ (if b then "true" else "false") ++ "`"
  | .str s => "duplicate entry with key " ++ Text.debugQuoted s
  | k => match k.numberText with
    | some n => "duplicate entry with key " ++ n
    | none => "duplicate entry in YAML map"

abbrev Jumps := Nat

mutual
/-- Builds the value whose event is at `pos`: gives it, the index after it, and
the aliases followed so far.  `depth` is how many more collections may nest;
`inTagged` says whether the node's local tag has been read already. -/
def valueAt (doc : Document) : Nat → Nat → Path → Nat → Bool → Jumps → Except LoadFault (Yaml × Nat × Jumps)
  | 0, _, _, _, _, _ => .error .endOfStream
  | fuel + 1, pos, path, depth, inTagged, jumps => do
    let (piece, mark) ← match doc.pieces[pos]? with
      | some pm => pure pm
      | none => throw (doc.fault.getD .endOfStream)
    let tagOf : Option (List UInt8) := match piece with
      | .scalar tag _ _ | .sequenceStart tag | .mappingStart tag => tag
      | _ => none
    let built : Except LoadFault (Yaml × Nat × Jumps) :=
      match (if inTagged then none else localTag? tagOf) with
      | some name => do
        let (v, next, jumps) ← valueAt doc fuel pos path depth true jumps
        pure (.tagged name v, next, jumps)
      | none =>
        match piece with
        | .alias number =>
          if jumps + 1 > doc.pieces.size * 100 then .error .repetitionLimit
          else do
            let target ← match doc.targets.lookup number with
              | some t => pure t
              | none => throw .endOfStream
            let (v, _, jumps) ← valueAt doc fuel target (.alias path) depth false (jumps + 1)
            pure (v, pos + 1, jumps)
        | .scalar tag text style => do
          let v ← scalarValue tag text style inTagged
          pure (v, pos + 1, jumps)
        | .sequenceStart _ =>
          if depth = 0 then .error (.recursionLimit mark)
          else do
            let (items, next, jumps) ← itemsFrom doc fuel (pos + 1) path (depth - 1) 0 jumps
            pure (.seq items, next + 1, jumps)
        | .mappingStart _ =>
          if depth = 0 then .error (.recursionLimit mark)
          else do
            let (entries, next, jumps) ← entriesFrom doc fuel (pos + 1) path (depth - 1) jumps []
            pure (.map entries, next + 1, jumps)
        | .void => .ok (.null, pos + 1, jumps)
        | .sequenceEnd | .mappingEnd => .error .endOfStream
    built.mapError (LoadFault.locate mark path)

/-- Builds the items of a sequence from `pos` up to its end, the `index`-th first. -/
def itemsFrom (doc : Document) : Nat → Nat → Path → Nat → Nat → Jumps →
    Except LoadFault (List Yaml × Nat × Jumps)
  | 0, _, _, _, _, _ => .error .endOfStream
  | fuel + 1, pos, path, depth, index, jumps => do
    let (piece, _) ← match doc.pieces[pos]? with
      | some pm => pure pm
      | none => throw (doc.fault.getD .endOfStream)
    match piece with
    | .sequenceEnd | .void => pure ([], pos, jumps)
    | _ => do
      let (v, next, jumps) ← valueAt doc fuel pos (.item path index) depth false jumps
      let (vs, next, jumps) ← itemsFrom doc fuel next path depth (index + 1) jumps
      pure (v :: vs, next, jumps)

/-- Builds the entries of a mapping from `pos` up to its end, after those in
`seen` (last first); a key equal to an earlier one is refused. -/
def entriesFrom (doc : Document) : Nat → Nat → Path → Nat → Jumps → List (Yaml × Yaml) →
    Except LoadFault (List (Yaml × Yaml) × Nat × Jumps)
  | 0, _, _, _, _, _ => .error .endOfStream
  | fuel + 1, pos, path, depth, jumps, seen => do
    let (piece, _) ← match doc.pieces[pos]? with
      | some pm => pure pm
      | none => throw (doc.fault.getD .endOfStream)
    match piece with
    | .mappingEnd | .void => pure (seen.reverse, pos, jumps)
    | _ => do
      let keyPath : Path := match piece with
        | .scalar _ text _ => .member path text
        | _ => .unknown path
      let (k, next, jumps) ← valueAt doc fuel pos path depth false jumps
      if let some (earlier, _) := seen.find? (fun (k', _) => k'.beq k) then
        throw (.mismatch (duplicateKeyMessage earlier) none)
      let (v, next, jumps) ← valueAt doc fuel next keyPath depth false jumps
      entriesFrom doc fuel next path depth jumps ((k, v) :: seen)
end

def Document.value (doc : Document) : Except LoadFault Yaml := do
  let fuel := 300 * (doc.pieces.size + 2)
  let (v, _, _) ← valueAt doc fuel 0 .root 128 false 0
  pure v

end Yaml

end DenyPolicy
