import DenyPolicy.Decimal.Binary64
/-!
# JSON values

A JSON document as the engine reads and writes it.  Numbers keep the three
kinds a reader distinguishes: a non-negative integer, a negative integer, and a
signed binary64 floating value.  Objects are
lists of fields in the order they were read; `Json.normalize` gives the keyed
view, where a later field of one name replaces an earlier one and fields are
sorted by name.
-/

namespace DenyPolicy

/-- A JSON number as it was read. -/
inductive Numeral where
  /-- A non-negative integer that fits in 64 unsigned bits. -/
  | nat (n : Nat)
  /-- The negative integer `-n`, with `0 < n ≤ 2^63`. -/
  | negInt (n : Nat)
  /-- A signed binary64 floating value. -/
  | float (negative : Bool) (magnitude : Binary64)
  deriving Repr, DecidableEq, Inhabited

/-- A JSON value; object fields are kept in the order given. -/
inductive Json where
  | null
  | bool (b : Bool)
  | num (n : Numeral)
  | str (s : String)
  | arr (items : List Json)
  | obj (fields : List (String × Json))
  deriving Repr, Inhabited

namespace Json

mutual
/-- Structural equality of values. -/
def beq : Json → Json → Bool
  | .null, .null => true
  | .bool a, .bool b => a == b
  | .num a, .num b => decide (a = b)
  | .str a, .str b => a == b
  | .arr xs, .arr ys => beqItems xs ys
  | .obj xs, .obj ys => beqFields xs ys
  | _, _ => false

def beqItems : List Json → List Json → Bool
  | [], [] => true
  | x :: xs, y :: ys => beq x y && beqItems xs ys
  | _, _ => false

def beqFields : List (String × Json) → List (String × Json) → Bool
  | [], [] => true
  | (k, x) :: xs, (l, y) :: ys => k == l && beq x y && beqFields xs ys
  | _, _ => false
end

instance : BEq Json := ⟨beq⟩

def field? (fields : List (String × Json)) (key : String) : Option Json :=
  fields.foldl (fun acc kv => if kv.1 == key then some kv.2 else acc) none

/-- Member `key` of an object; `none` for a missing member or a value that is no object. -/
def get? : Json → String → Option Json
  | .obj fields, key => field? fields key
  | _, _ => none

def getStr? : Json → Option String
  | .str s => some s
  | _ => none

def insertSorted (key : String) (v : Json) : List (String × Json) → List (String × Json)
  | [] => [(key, v)]
  | (k, w) :: rest =>
    if key == k then (key, v) :: rest
    else if key < k then (key, v) :: (k, w) :: rest
    else (k, w) :: insertSorted key v rest

mutual
/-- The keyed view of a value: every object sorted by field name, a later field of one
name replacing an earlier one. -/
def normalize : Json → Json
  | .arr xs => .arr (normalizeItems xs)
  | .obj fs => .obj ((normalizeFields fs).foldl (fun acc kv => insertSorted kv.1 kv.2 acc) [])
  | v => v

def normalizeItems : List Json → List Json
  | [] => []
  | x :: xs => normalize x :: normalizeItems xs

def normalizeFields : List (String × Json) → List (String × Json)
  | [] => []
  | (k, x) :: xs => (k, normalize x) :: normalizeFields xs
end

end Json

end DenyPolicy
