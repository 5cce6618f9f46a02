import DenyPolicy.Json.Print
import DenyPolicy.Text.Quoted
/-!
# Document schemas

A schema says what a document must hold to be read as a value of some type:
text, a flag, an unsigned integer of some width, an optional or repeated part,
a dictionary, one name out of a list, a record of named members, a record
whose kind is named by a tag member, any value at all, or text that a parser
accepts.  A record says of each member whether it must be present, takes a
default when absent, or is optional.

A reading that fails says why, in the words typed readers use:
`invalid type: string "x", expected a boolean`, ``missing field `scope` ``,
``unknown variant `x`, expected one of `a`, `b`, `c` ``.  What was found is
quoted in one of two styles: readers of JSON text and JSON values write
`null` and a float by the digits JSON would print, readers of other values
write `unit value` and a float positionally with a decimal point.

Readers live beside this module: `Schema.Text` reads JSON text against a
schema and says where it fails, `Schema.Value` checks a value already read.
-/

namespace DenyPolicy

/-- Whether a member of a record may be absent. -/
inductive Presence where
  /-- The member must be present. -/
  | required
  /-- An absent member takes its default. -/
  | defaulted
  /-- An absent member reads as `null`; in the positional form it must be present. -/
  | optional
  deriving Repr, DecidableEq, Inhabited

/-- What a document must hold. -/
inductive Schema where
  /-- A string. -/
  | text
  /-- A boolean. -/
  | flag
  /-- An integer from `0` to `2 ^ width - 1`, called `name` in messages. -/
  | unsigned (width : Nat) (name : String)
  /-- `null`, or what `s` accepts. -/
  | optional (s : Schema)
  /-- A sequence of what `s` accepts. -/
  | list (s : Schema)
  /-- A map from strings to what `s` accepts. -/
  | dictionary (s : Schema)
  /-- One of `names`, or an alias standing for one of them. -/
  | choice (names : List String) (aliases : List (String × String))
  /-- A record called `name`, with its members in declaration order. -/
  | record (name : String) (members : List (String × Presence × Schema))
  /-- A record called `name` whose member `tag` names its kind; each kind has its
  own members. -/
  | tagged (name : String) (tag : String) (kinds : List (String × List (String × Presence × Schema)))
  /-- Any value. -/
  | anything
  /-- A string that `check` accepts; `check` gives the reason when it does not,
  and `expecting` says what is wanted. -/
  | parsed (expecting : String) (check : String → Option String)

abbrev Members := List (String × Presence × Schema)

namespace Schema

/-- What a reader of the schema says it expects. -/
def expecting : Schema → String
  | .text => "a string"
  | .flag => "a boolean"
  | .unsigned _ name => name
  | .optional s => s.expecting
  | .list _ => "a sequence"
  | .dictionary _ => "a map"
  | .choice _ _ => "variant identifier"
  | .record name _ => "struct " ++ name
  | .tagged name _ _ => "internally tagged enum " ++ name
  | .anything => "any valid JSON value"
  | .parsed expecting _ => expecting

def choose (names : List String) (aliases : List (String × String)) (s : String) : Option String :=
  if names.contains s then some s else aliases.lookup s

/-- The name a type gives the kind that documents call `wire`: each part between
underscores with its first letter raised, the underscores dropped. -/
def variantName (wire : String) : String :=
  String.join ((wire.splitOn "_").map String.capitalize)

/-- The names a choice lists when it meets one it does not know: each name
together with its aliases, those in byte order, the names in their own order. -/
def acceptedNames (names : List String) (aliases : List (String × String)) : List String :=
  names.flatMap fun n =>
    (n :: (aliases.filter (·.2 == n)).map (·.1)).mergeSort fun a b => decide (a ≤ b)

def positional (name : String) (n : Nat) : String :=
  "struct " ++ name ++ " with " ++ toString n ++ (if n = 1 then " element" else " elements")

end Schema

/-- What a reading found where it expected something else. -/
inductive Found where
  | unit
  | flag (b : Bool)
  | unsigned (n : Nat)
  | signed (n : Int)
  | float (negative : Bool) (v : Binary64)
  | infinity (negative : Bool)
  | nan
  | text (s : String)
  | sequence
  | map
  /-- A value under a local tag. -/
  | enum
  deriving Repr, Inhabited

/-- How a reader quotes a value it did not expect. -/
inductive Quoting where
  /-- `null`, and a float by the digits JSON prints. -/
  | json
  /-- `unit value`, and a float positionally with a decimal point. -/
  | plain
  deriving Repr, DecidableEq, Inhabited

/-- A float positionally, from its shortest digits `digits · 10 ^ exponent`,
with `.0` added when no point is written. -/
def positionalFloat (negative : Bool) (digits : Nat) (exponent : Int) : String :=
  let sign := if negative then "-" else ""
  let text := toString digits
  let body :=
    if digits = 0 then "0.0"
    else if 0 ≤ exponent then text ++ zeros exponent.toNat ++ ".0"
    else
      let kk : Int := text.length + exponent
      if 0 < kk then
        String.ofList (text.toList.take kk.toNat) ++ "." ++ String.ofList (text.toList.drop kk.toNat)
      else "0." ++ zeros (-kk).toNat ++ text
  sign ++ body

namespace Found

def ofNumeral : Numeral → Found
  | .nat n => .unsigned n
  | .negInt n => .signed (-(n : Int))
  | .float negative v => .float negative v

/-- How a message names what was found. -/
def describe (q : Quoting) : Found → String
  | .unit => if q = .json then "null" else "unit value"
  | .flag b => "boolean " ++ "`" ++ (if b then "true" else "false") ++ "`"
  | .unsigned n => "integer `" ++ toString n ++ "`"
  | .signed n => "integer `" ++ toString n ++ "`"
  | .float negative v =>
    let (d, e) := v.shortest
    "floating point `" ++ (if q = .json then renderFloat negative d e else positionalFloat negative d e) ++ "`"
  | .infinity negative => "floating point `" ++ (if negative then "-inf" else "inf") ++ "`"
  | .nan => "floating point `NaN`"
  | .text s => "string " ++ Text.debugQuoted s
  | .sequence => "sequence"
  | .map => "map"
  | .enum => "enum"

end Found

def oneOf (names : List String) : String :=
  let quoted := names.map fun n => "`" ++ n ++ "`"
  match quoted with
  | [a] => a
  | [a, b] => a ++ " or " ++ b
  | _ => "one of " ++ ", ".intercalate quoted

/-- Why a value does not fit its schema. -/
inductive Mismatch where
  | invalidType (found : Found) (expected : String)
  | invalidValue (found : Found) (expected : String)
  | invalidLength (length : Nat) (expected : String)
  | unknownVariant (name : String) (names : List String)
  | missingField (name : String)
  | duplicateField (name : String)
  /-- A parser's own reason. -/
  | custom (message : String)
  deriving Repr, Inhabited

/-- The message of a mismatch, quoting what was found in style `q`. -/
def Mismatch.message (q : Quoting) : Mismatch → String
  | .invalidType f e => "invalid type: " ++ f.describe q ++ ", expected " ++ e
  | .invalidValue f e => "invalid value: " ++ f.describe q ++ ", expected " ++ e
  | .invalidLength n e => "invalid length " ++ toString n ++ ", expected " ++ e
  | .unknownVariant name [] => "unknown variant `" ++ name ++ "`, there are no variants"
  | .unknownVariant name names => "unknown variant `" ++ name ++ "`, expected " ++ oneOf names
  | .missingField name => "missing field `" ++ name ++ "`"
  | .duplicateField name => "duplicate field `" ++ name ++ "`"
  | .custom m => m

end DenyPolicy
