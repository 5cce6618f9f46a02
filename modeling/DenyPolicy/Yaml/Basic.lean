import DenyPolicy.Json.Print
import DenyPolicy.Text.Quoted
/-!
# YAML values

The value of a YAML document: null, booleans, numbers of the three JSON kinds,
infinities and NaN, strings, sequences, mappings whose keys are themselves
values, kept in document order, and values under a local tag `!name`, which
keep the name without its `!`.

Two values are the same key when they are equal as values: numbers of
different kinds differ, floating values compare as numbers (so `0.0` and
`-0.0` are one key, and NaN is one key), mappings compare as sets of entries
whatever their order, and tags compare without a leading `!`.

A value is also written in its debugging form, `Null`, `Bool(true)`,
`Number(3)`, `String("x")`, `Sequence [..]`, `Mapping {..}` and
`TaggedValue { tag: !name, value: .. }`, which is how error messages quote a
value that should have been a string.
-/

namespace DenyPolicy

/-- A YAML value. -/
inductive Yaml where
  | null
  | bool (b : Bool)
  | num (n : Numeral)
  /-- An infinite floating value. -/
  | infinity (negative : Bool)
  /-- The floating value that is not a number. -/
  | nan
  | str (s : String)
  | seq (items : List Yaml)
  | map (entries : List (Yaml × Yaml))
  /-- A value under a local tag, named without its `!`. -/
  | tagged (tag : String) (value : Yaml)
  deriving Repr, Inhabited

namespace Yaml

def untag : Yaml → Yaml
  | .tagged _ v => untag v
  | v => v

/-- The value of the entry whose key is the string `key`, looking through tags. -/
def get? (v : Yaml) (key : String) : Option Yaml :=
  match v.untag with
  | .map entries => entries.findSome? fun (k, w) => match k with
    | .str s => if s = key then some w else none
    | _ => none
  | _ => none

def getStr? (v : Yaml) : Option String :=
  match v.untag with
  | .str s => some s
  | _ => none

/-- A mapping, looking through tags, with the entry of string key `key` replaced by `w`. -/
def setField (v : Yaml) (key : String) (w : Yaml) : Yaml :=
  match v with
  | .tagged t inner => .tagged t (setField inner key w)
  | .map es => .map (es.map fun (k, x) => match k with
      | .str s => if s = key then (k, w) else (k, x)
      | _ => (k, x))
  | other => other

def tagName (t : String) : String :=
  if t.startsWith "!" && t.length > 1 then (t.drop 1).toString else t

mutual
def nodeCount : Yaml → Nat
  | .seq xs => 1 + nodeCountItems xs
  | .map es => 1 + nodeCountEntries es
  | .tagged _ v => 1 + nodeCount v
  | _ => 1

def nodeCountItems : List Yaml → Nat
  | [] => 0
  | x :: xs => nodeCount x + nodeCountItems xs

def nodeCountEntries : List (Yaml × Yaml) → Nat
  | [] => 0
  | (k, v) :: es => nodeCount k + nodeCount v + nodeCountEntries es
end

def sameNumber : Numeral → Numeral → Bool
  | .nat a, .nat b => a == b
  | .negInt a, .negInt b => a == b
  | .float na a, .float nb b => (a.isZero && b.isZero) || (na == nb && decide (a = b))
  | _, _ => false

/-- Whether two values are equal, within `fuel` steps.  Mapping entries match
whatever their order. -/
def sameUpTo : Nat → Yaml → Yaml → Bool
  | 0, _, _ => false
  | fuel + 1, a, b =>
    match a, b with
    | .null, .null => true
    | .bool a, .bool b => a == b
    | .num a, .num b => sameNumber a b
    | .infinity a, .infinity b => a == b
    | .nan, .nan => true
    | .str a, .str b => a == b
    | .seq xs, .seq ys => xs.length == ys.length && (xs.zip ys).all fun (x, y) => sameUpTo fuel x y
    | .map xs, .map ys =>
      xs.length == ys.length &&
        xs.all fun (k, v) => ys.any fun (k', v') => sameUpTo fuel k k' && sameUpTo fuel v v'
    | .tagged s x, .tagged t y => tagName s == tagName t && sameUpTo fuel x y
    | _, _ => false

def beq (a b : Yaml) : Bool := sameUpTo (a.nodeCount + b.nodeCount + 1) a b

mutual
/-- The JSON view of a value: tags are dropped, mapping entries with string
keys become object members, and entries with other keys are left out.  An
infinity or NaN becomes a floating zero of its sign: no input field holds a
floating value, so the two are refused alike. -/
def toJson : Yaml → Json
  | .null => .null
  | .bool b => .bool b
  | .num n => .num n
  | .infinity negative => .num (.float negative Binary64.zero)
  | .nan => .num (.float false Binary64.zero)
  | .str s => .str s
  | .seq xs => .arr (itemsToJson xs)
  | .map es => .obj (entriesToJson es)
  | .tagged _ v => toJson v

def itemsToJson : List Yaml → List Json
  | [] => []
  | x :: xs => toJson x :: itemsToJson xs

def entriesToJson : List (Yaml × Yaml) → List (String × Json)
  | [] => []
  | (.str k, v) :: rest => (k, toJson v) :: entriesToJson rest
  | _ :: rest => entriesToJson rest
end

/-- A number as YAML values write it: like JSON, except that a positive
exponent is unsigned, `1e21`. -/
def numeralText : Numeral → String
  | .float negative v => let (d, e) := v.shortest; renderFloatWith "" negative d e
  | n => n.render

def numberText : Yaml → Option String
  | .num n => some (numeralText n)
  | .infinity negative => some (if negative then "-.inf" else ".inf")
  | .nan => some ".nan"
  | _ => none

mutual
/-- The debugging form of a value. -/
def debug : Yaml → String
  | .null => "Null"
  | .bool b => if b then "Bool(true)" else "Bool(false)"
  | .num n => "Number(" ++ numeralText n ++ ")"
  | .infinity negative => if negative then "Number(-.inf)" else "Number(.inf)"
  | .nan => "Number(.nan)"
  | .str s => "String(" ++ Text.debugQuoted s ++ ")"
  | .seq xs => "Sequence [" ++ debugItems xs ++ "]"
  | .map es => "Mapping \x7b" ++ debugEntries es ++ "\x7d"
  | .tagged t v => "TaggedValue \x7b tag: !" ++ tagName t ++ ", value: " ++ debug v ++ " \x7d"

def debugItems : List Yaml → String
  | [] => ""
  | [x] => debug x
  | x :: xs => debug x ++ ", " ++ debugItems xs

def debugEntries : List (Yaml × Yaml) → String
  | [] => ""
  | [(k, v)] => debugKey k ++ ": " ++ debug v
  | (k, v) :: rest => debugKey k ++ ": " ++ debug v ++ ", " ++ debugEntries rest

/-- A mapping key in debugging form: booleans, numbers and strings bare, other
values as values. -/
def debugKey : Yaml → String
  | .bool b => if b then "true" else "false"
  | .num n => numeralText n
  | .infinity negative => if negative then "-.inf" else ".inf"
  | .nan => ".nan"
  | .str s => Text.debugQuoted s
  | k => debug k
end

end Yaml

end DenyPolicy
