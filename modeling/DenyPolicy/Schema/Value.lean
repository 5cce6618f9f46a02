import DenyPolicy.Schema.Basic
import DenyPolicy.Yaml.Basic
import DenyPolicy.Json.Decode
/-!
# Checking values against a schema

A document already read into a value, a JSON value or a YAML value, is checked
against a schema member by member, in the order the value holds them, and the
first mismatch is the answer.  When the value fits, the check returns it as
JSON in the form the typed decoders take: records as objects of their members,
names of a choice in their canonical spelling, and dictionaries sorted by key.

A record whose kind is named by a tag may also be written as a sequence: the tag
first, then the members of that kind in declaration order.

Readers of different values differ in a few decisions, which `ValueRules` holds:
how a mismatch quotes what it found, whether `null` stands for an empty
sequence or map, whether a record may be written as the sequence of its
members, and how a choice that is neither a name nor a map is described.
A checked value holds no position, so mismatches carry none.

A YAML value may hold values under a local tag.  Most schemas look through the
tag; a choice takes the tag for the name it chooses, with nothing under it; a
tagged record refuses a tagged value both as itself and among its members.

JSON values are checked as YAML values whose keys are strings
(`Json.asDocument`), so one checker serves both.
-/

namespace DenyPolicy

/-- The decisions in which readers of values differ. -/
structure ValueRules where
  quoting : Quoting
  /-- `null` reads as an empty sequence, map or record. -/
  nullIsEmpty : Bool
  /-- A record may be the sequence of its members in declaration order. -/
  recordFromSequence : Bool
  /-- A choice may be a map of one entry, from the name to `null`. -/
  choiceFromMap : Bool
  /-- What a choice expects when it finds neither a name nor such a map. -/
  choiceExpecting : String
  /-- What a record of `n` members written as a sequence with too many items
  expects. -/
  fewerItems : Nat → String
  /-- A key that is an unsigned integer names the member at that place, and is
  ignored past the last member. -/
  placeKeys : Bool

namespace ValueRules

/-- Reading JSON values: `null` is never empty, and records may be positional. -/
def json : ValueRules :=
  ⟨.json, false, true, true, "string or map", fun _ => "fewer elements in array", false⟩

/-- Reading YAML values: `null` is an empty sequence, map or record, records are
maps only, and a choice is a name. -/
def yaml : ValueRules :=
  ⟨.plain, true, false, false, "a Value::Tagged enum", fun _ => "fewer elements in sequence", false⟩

/-- Reading the members of a tagged record, which were set aside as plain content
while the tag was looked for: a sequence too long for a record says how many
items the record took, and an unsigned integer key names a member by its place. -/
def content (q : Quoting) : ValueRules :=
  ⟨q, false, true, true, "string or map",
    fun n => if n = 1 then "1 element in sequence" else toString n ++ " elements in sequence", true⟩

end ValueRules

namespace Json

mutual
/-- A JSON value as a document whose keys are strings. -/
def asDocument : Json → Yaml
  | .null => .null
  | .bool b => .bool b
  | .num n => .num n
  | .str s => .str s
  | .arr xs => .seq (asDocumentItems xs)
  | .obj fs => .map (asDocumentFields fs)

def asDocumentItems : List Json → List Yaml
  | [] => []
  | x :: xs => asDocument x :: asDocumentItems xs

def asDocumentFields : List (String × Json) → List (Yaml × Yaml)
  | [] => []
  | (k, x) :: xs => (.str k, asDocument x) :: asDocumentFields xs
end

end Json

namespace Yaml

/-- What a mismatch says it found. -/
def found : Yaml → Found
  | .null => .unit
  | .bool b => .flag b
  | .num n => Found.ofNumeral n
  | .infinity negative => .infinity negative
  | .nan => .nan
  | .str s => .text s
  | .seq _ => .sequence
  | .map _ => .map
  | .tagged _ _ => .enum

mutual
/-- Whether a value holds a tagged value anywhere. -/
def holdsTag : Yaml → Bool
  | .tagged _ _ => true
  | .seq xs => holdsTagItems xs
  | .map es => holdsTagEntries es
  | _ => false

def holdsTagItems : List Yaml → Bool
  | [] => false
  | x :: xs => holdsTag x || holdsTagItems xs

def holdsTagEntries : List (Yaml × Yaml) → Bool
  | [] => false
  | (k, v) :: es => holdsTag k || holdsTag v || holdsTagEntries es
end

end Yaml

namespace Schema

/-- The members that are absent from `seen`: `null` for an optional one, nothing
for one with a default, and a mismatch for the first required one in
declaration order. -/
def absentMembers (seen : List String) : Members → Except Mismatch (List (String × Json))
  | [] => .ok []
  | (name, presence, _) :: rest =>
    if seen.contains name then absentMembers seen rest
    else match presence with
      | .required => .error (.missingField name)
      | .optional => do pure ((name, .null) :: (← absentMembers seen rest))
      | .defaulted => absentMembers seen rest

def memberNamed (members : Members) (name : String) : Option (Presence × Schema) :=
  (members.find? (·.1 == name)).map (·.2)

/-- The members of a record in declaration order, from the members found. -/
def inOrder (members : Members) (found : List (String × Json)) : List (String × Json) :=
  members.filterMap fun (name, _, _) => (found.lookup name).map (name, ·)

/-- Why a tagged record refuses a tagged value among its members: they are set
aside as plain content before the kind is known, and plain content holds no
tags. -/
def enumInput : String := "untagged and internally tagged enums do not support enum input"

def mismatchExpecting (r : ValueRules) : Schema → String
  | .choice _ _ => r.choiceExpecting
  | s => s.expecting

mutual
/-- Checks a value against a schema; `fuel` bounds the depth of the walk. -/
def check (r : ValueRules) : Nat → Schema → Yaml → Except Mismatch Json
  | 0, _, _ => .error (.custom "recursion limit exceeded")
  | _ + 1, .text, .str s => .ok (.str s)
  | _ + 1, .flag, .bool b => .ok (.bool b)
  | _ + 1, .unsigned width name, .num (.nat n) =>
    if n < Nat.pow 2 width then .ok (.num (.nat n)) else .error (.invalidValue (.unsigned n) name)
  | _ + 1, .unsigned _ name, .num (.negInt n) => .error (.invalidValue (.signed (-(n : Int))) name)
  | _ + 1, .optional _, .null => .ok .null
  | fuel + 1, .optional s, v => check r fuel s v
  | fuel + 1, .list s, .seq xs => (checkItems r fuel s xs).map .arr
  | _ + 1, .list _, .null => if r.nullIsEmpty then .ok (.arr []) else .error (.invalidType .unit "a sequence")
  | fuel + 1, .dictionary s, .map es => (checkDictionary r fuel s es).map fun fs => (Json.obj fs).normalize
  | _ + 1, .dictionary _, .null => if r.nullIsEmpty then .ok (.obj []) else .error (.invalidType .unit "a map")
  | _ + 1, .choice names aliases, .str s =>
    match choose names aliases s with
    | some c => .ok (.str c)
    | none => .error (.unknownVariant s (acceptedNames names aliases))
  | _ + 1, .choice names aliases, .map es =>
    if r.choiceFromMap then
      match es with
      | [(.str s, v)] =>
        match choose names aliases s with
        | some c =>
          match v with
          | .null => .ok (.str c)
          | other => .error (.invalidType other.found "unit")
        | none => .error (.unknownVariant s (acceptedNames names aliases))
      | _ => .error (.invalidValue .map "map with a single key")
    else .error (.invalidType .map r.choiceExpecting)
  | fuel + 1, .record _ members, .map es => checkRecord r fuel members es
  | fuel + 1, .record name members, .seq xs =>
    if r.recordFromSequence then checkPositional r fuel name members xs
    else .error (.invalidType .sequence ("struct " ++ name))
  | fuel + 1, .record name members, .null =>
    if r.nullIsEmpty then checkRecord r fuel members []
    else .error (.invalidType .unit ("struct " ++ name))
  | fuel + 1, .tagged _ tag kinds, .map es => checkTagged r fuel tag kinds es [] none
  | fuel + 1, .tagged name tag kinds, .seq xs => checkTaggedItems r fuel name tag kinds xs
  | _ + 1, .choice names aliases, .tagged t v =>
    match choose names aliases (Yaml.tagName t) with
    | some c =>
      match v with
      | .null => .ok (.str c)
      | other => .error (.invalidType other.found "unit")
    | none => .error (.unknownVariant (Yaml.tagName t) (acceptedNames names aliases))
  | _ + 1, .anything, v => .ok v.toJson
  | _ + 1, .tagged name _ _, .tagged _ _ => .error (.invalidType .enum ("internally tagged enum " ++ name))
  | fuel + 1, s, .tagged _ v => check r fuel s v
  | _ + 1, .parsed _ accept, .str s =>
    match accept s with
    | some reason => .error (.custom reason)
    | none => .ok (.str s)
  | _ + 1, s, v => .error (.invalidType v.found (mismatchExpecting r s))

/-- Checks the items of a sequence. -/
def checkItems (r : ValueRules) : Nat → Schema → List Yaml → Except Mismatch (List Json)
  | 0, _, _ => .error (.custom "recursion limit exceeded")
  | _ + 1, _, [] => .ok []
  | fuel + 1, s, x :: xs => do
    let y ← check r fuel s x
    let ys ← checkItems r fuel s xs
    pure (y :: ys)

/-- Checks the entries of a dictionary, whose keys are strings. -/
def checkDictionary (r : ValueRules) : Nat → Schema → List (Yaml × Yaml) → Except Mismatch (List (String × Json))
  | 0, _, _ => .error (.custom "recursion limit exceeded")
  | _ + 1, _, [] => .ok []
  | fuel + 1, s, (k, v) :: es => do
    let key ← match k.untag with
      | .str key => pure key
      | other => .error (.invalidType other.found "a string")
    let y ← check r fuel s v
    let rest ← checkDictionary r fuel s es
    pure ((key, y) :: rest)

def checkRecord (r : ValueRules) : Nat → Members → List (Yaml × Yaml) → Except Mismatch Json
  | 0, _, _ => .error (.custom "recursion limit exceeded")
  | fuel + 1, members, es => do
    let found ← checkMembers r fuel members [] es
    let absent ← absentMembers (found.map (·.1)) members
    pure (.obj (inOrder members (found ++ absent)))

/-- Checks the entries of a map that name members, after the members named in
`seen`; a member named twice is refused, and other entries are ignored. -/
def checkMembers (r : ValueRules) : Nat → Members → List String → List (Yaml × Yaml) →
    Except Mismatch (List (String × Json))
  | 0, _, _, _ => .error (.custom "recursion limit exceeded")
  | _ + 1, _, _, [] => .ok []
  | fuel + 1, members, seen, (k, v) :: es => do
    let name? ← match k.untag with
      | .str name => pure (some name)
      | .num (.nat n) =>
        if r.placeKeys then pure (members[n]?.map (·.1))
        else .error (.invalidType k.untag.found "field identifier")
      | other => .error (.invalidType other.found "field identifier")
    match name?.bind fun name => (memberNamed members name).map (name, ·) with
    | some (name, _, s) =>
      if seen.contains name then .error (.duplicateField name)
      else
        let y ← check r fuel s v
        let rest ← checkMembers r fuel members (name :: seen) es
        pure ((name, y) :: rest)
    | none => checkMembers r fuel members seen es

def checkPositional (r : ValueRules) : Nat → String → Members → List Yaml → Except Mismatch Json
  | 0, _, _, _ => .error (.custom "recursion limit exceeded")
  | fuel + 1, name, members, xs => do
    let found ← checkPlaces r fuel (Schema.positional name members.length) 0 members xs
    if members.length < xs.length then .error (.invalidLength xs.length (r.fewerItems members.length))
    else pure (.obj found)

/-- Checks the items of a sequence as the members from place `i` on. -/
def checkPlaces (r : ValueRules) : Nat → String → Nat → Members → List Yaml →
    Except Mismatch (List (String × Json))
  | 0, _, _, _, _ => .error (.custom "recursion limit exceeded")
  | _ + 1, _, _, [], _ => .ok []
  | fuel + 1, expecting, i, (name, _, s) :: members, x :: xs => do
    let y ← check r fuel s x
    let rest ← checkPlaces r fuel expecting (i + 1) members xs
    pure ((name, y) :: rest)
  | fuel + 1, expecting, i, (_, presence, _) :: members, [] =>
    if presence = .defaulted then checkPlaces r fuel expecting (i + 1) members []
    else .error (.invalidLength i expecting)

/-- Checks a tagged record: finds the tag among the entries, setting the others
aside, then checks those against the members of the kind the tag names. -/
def checkTagged (r : ValueRules) : Nat → String → List (String × Members) → List (Yaml × Yaml) →
    List (Yaml × Yaml) → Option String → Except Mismatch Json
  | 0, _, _, _, _, _ => .error (.custom "recursion limit exceeded")
  | fuel + 1, tag, kinds, [], aside, kind =>
    match kind with
    | none => .error (.missingField tag)
    | some k =>
      match kinds.lookup k with
      | none => .error (.unknownVariant k (kinds.map (·.1)))
      | some members => do
        let v ← checkRecord (ValueRules.content r.quoting) fuel members aside.reverse
        match v with
        | .obj fs => pure (.obj ((tag, .str k) :: fs))
        | other => pure other
  | fuel + 1, tag, kinds, (k, v) :: es, aside, kind =>
    if k.holdsTag then .error (.custom enumInput)
    else if k.beq (.str tag) then
      if kind.isSome then .error (.duplicateField tag) else
      match v.untag with
      | .str name =>
        if (kinds.map (·.1)).contains name then checkTagged r fuel tag kinds es aside (some name)
        else .error (.unknownVariant name (kinds.map (·.1)))
      | other => .error (.invalidType other.found "variant identifier")
    else if v.holdsTag then .error (.custom enumInput)
    else checkTagged r fuel tag kinds es ((k, v) :: aside) kind

/-- Checks a tagged record written as a sequence: the tag first, then the
members of the kind it names in declaration order. -/
def checkTaggedItems (r : ValueRules) : Nat → String → String → List (String × Members) → List Yaml →
    Except Mismatch Json
  | 0, _, _, _, _ => .error (.custom "recursion limit exceeded")
  | _ + 1, _, tag, _, [] => .error (.missingField tag)
  | fuel + 1, name, tag, kinds, first :: rest =>
    match first.untag with
    | .str k =>
      match kinds.lookup k with
      | none => .error (.unknownVariant k (kinds.map (·.1)))
      | some members => do
        if Yaml.holdsTagItems rest then throw (Mismatch.custom enumInput)
        let v ← checkPositional (ValueRules.content r.quoting) fuel
          ("variant " ++ name ++ "::" ++ Schema.variantName k) members rest
        match v with
        | .obj fs => pure (.obj ((tag, .str k) :: fs))
        | other => pure other
    | other => .error (.invalidType other.found "variant identifier")
end

/-- Checks a value against a schema, with fuel for every node of the value. -/
def checkValue (r : ValueRules) (s : Schema) (v : Yaml) : Except Mismatch Json :=
  check r (2 * v.nodeCount + 64) s v

def decoding (s : Schema) (d : Decoder α) : Decoder α := fun v =>
  match checkValue ValueRules.json s v.asDocument with
  | .ok w => d w
  | .error m => .error (.rejected (m.message .json))

end Schema

end DenyPolicy
