import DenyPolicy.Yaml.Basic
import DenyPolicy.Decimal.Binary64
/-!
# YAML scalars

Resolution of plain scalars to null, booleans, numbers or strings, as the YAML
1.2 core schema reads them: `~` and `null` in three cases are null, `true` and
`false` in three cases are booleans, integers are decimal without a leading
zero, or hexadecimal, octal or binary after `0x`, `0o` or `0b`, and floating
values are decimals with a point or an exponent, or `.inf`, `-.inf` and `.nan`
in three cases.
-/

namespace DenyPolicy

namespace Yaml

def digitIn (base : Nat) (c : Char) : Option Nat :=
  let v := if '0' ≤ c ∧ c ≤ '9' then some (c.toNat - 48)
    else if 'a' ≤ c ∧ c ≤ 'z' then some (c.toNat - 87)
    else if 'A' ≤ c ∧ c ≤ 'Z' then some (c.toNat - 55)
    else none
  v.bind fun d => if d < base then some d else none

def digitsIn (base : Nat) (cs : List Char) : Option Nat :=
  if cs.isEmpty then none
  else cs.foldlM (fun n c => (digitIn base c).map fun d => base * n + d) 0

/-- Whether a text is a zero followed by more decimal digits, after an optional
sign: YAML reads such a text as a string. -/
def leadingZeroDigits (cs : List Char) : Bool :=
  let body := match cs with
    | '+' :: r | '-' :: r => r
    | r => r
  match body with
  | '0' :: r@(_ :: _) => r.all Char.isDigit
  | _ => false

def startsWithSign (cs : List Char) : Bool := cs.head?.any fun c => c = '+' ∨ c = '-'

/-- A non-negative integer below `2^bits`: after an optional `+`, digits after
`0x`, `0o` or `0b` in that base, or else decimal digits without a leading zero. -/
def unsignedInt (bits : Nat) (cs : List Char) : Option Nat :=
  let fits (n : Nat) : Option Nat := if n < Nat.pow 2 bits then some n else none
  let unpositive := match cs with
    | '+' :: r => if startsWithSign r then none else some r
    | r => some r
  unpositive.bind fun u =>
    let radix (base : Nat) (rest : List Char) : Option Nat :=
      if startsWithSign rest then none else (digitsIn base rest).bind fits
    let prefixed := match u with
      | '0' :: 'x' :: rest => radix 16 rest
      | '0' :: 'o' :: rest => radix 8 rest
      | '0' :: 'b' :: rest => radix 2 rest
      | _ => none
    match prefixed with
    | some n => some n
    | none =>
      if startsWithSign u ∨ leadingZeroDigits cs then none
      else (digitsIn 10 u).bind fits

/-- The magnitude of a negative integer of at least `-2^(bits-1)`: `-` and digits
after `0x`, `0o` or `0b`, or else a decimal integer with an optional sign and
no leading zero (its magnitude is zero or the integer is negative). -/
def negativeInt (bits : Nat) (cs : List Char) : Option Int :=
  let fits (n : Int) : Option Int := if -Int.pow 2 (bits - 1) ≤ n ∧ n < Int.pow 2 (bits - 1) then some n else none
  let radix (base : Nat) (rest : List Char) : Option Int :=
    (digitsIn base rest).bind fun n => fits (-(n : Int))
  let prefixed := match cs with
    | '-' :: '0' :: 'x' :: rest => radix 16 rest
    | '-' :: '0' :: 'o' :: rest => radix 8 rest
    | '-' :: '0' :: 'b' :: rest => radix 2 rest
    | _ => none
  match prefixed with
  | some n => some n
  | none =>
    if leadingZeroDigits cs then none
    else match cs with
      | '-' :: rest => (digitsIn 10 rest).bind fun n => fits (-(n : Int))
      | '+' :: rest => (digitsIn 10 rest).bind fun n => fits n
      | rest => (digitsIn 10 rest).bind fun n => fits n

/-- Reads a decimal: digits with an optional point and an optional exponent,
with at least one digit before or after the point, as `digits · 10^exponent`. -/
def decimal? (cs : List Char) : Option (Nat × Int) :=
  let whole := cs.takeWhile Char.isDigit
  let (frac, rest) := match cs.dropWhile Char.isDigit with
    | '.' :: r => (r.takeWhile Char.isDigit, r.dropWhile Char.isDigit)
    | r => ([], r)
  if whole.isEmpty ∧ frac.isEmpty then none
  else
    let exp : Option Int := match rest with
      | [] => some 0
      | e :: r =>
        if e = 'e' ∨ e = 'E' then
          let (sign, ds) : Int × List Char := match r with
            | '+' :: d => (1, d)
            | '-' :: d => (-1, d)
            | d => (1, d)
          (digitsIn 10 ds).map fun n => sign * n
        else none
    exp.map fun e => ((digitsIn 10 (whole ++ frac)).getD 0, e - frac.length)

/-- A finite floating value, or an infinity or NaN by their YAML names. -/
inductive FloatText where
  | finite (negative : Bool) (magnitude : Binary64)
  | infinity (negative : Bool)
  | nan

/-- A floating value: after an optional `+`, `.inf` or `-.inf` in three cases,
`.nan` in three cases, or a decimal as `decimal?` reads it after an optional
`-`, rounded correctly; a decimal beyond the largest double is no number. -/
def floatText? (cs : List Char) : Option FloatText :=
  let unpositive := match cs with
    | '+' :: r => if startsWithSign r then none else some r
    | r => some r
  unpositive.bind fun u =>
    let text := String.ofList u
    if text = ".inf" ∨ text = ".Inf" ∨ text = ".INF" then some (.infinity false)
    else if cs = "-.inf".toList ∨ cs = "-.Inf".toList ∨ cs = "-.INF".toList then some (.infinity true)
    else if cs = ".nan".toList ∨ cs = ".NaN".toList ∨ cs = ".NAN".toList then some .nan
    else
      let (negative, body) := match u with
        | '-' :: r => (true, r)
        | r => (false, r)
      if startsWithSign body then none
      else (decimal? body).bind fun (d, e) => (Binary64.ofDecimal d e).map (.finite negative)

def wideIntegerMessage (n : Int) (kind : String) : String :=
  "invalid type: integer `" ++ toString n ++ "` as " ++ kind ++ ", expected any YAML value"

/-- The integer a text reads as: 64-bit unsigned, then 64-bit signed; one that
only 128 bits hold is refused as too wide, with the message it gets. -/
def intValue? (cs : List Char) : Except String (Option Yaml) :=
  match unsignedInt 64 cs with
  | some n => .ok (some (.num (.nat n)))
  | none =>
    match negativeInt 64 cs with
    | some n => .ok (some (.num (if n < 0 then .negInt n.natAbs else .nat n.toNat)))
    | none =>
      match unsignedInt 128 cs with
      | some n => .error (wideIntegerMessage n "u128")
      | none =>
        match negativeInt 128 cs with
        | some n => .error (wideIntegerMessage n "i128")
        | none => .ok none

def floatValue? (cs : List Char) : Option Yaml :=
  (floatText? cs).map fun
    | .finite negative v => .num (.float negative v)
    | .infinity negative => .infinity negative
    | .nan => .nan

def boolValue? (s : String) : Option Bool :=
  if s = "true" ∨ s = "True" ∨ s = "TRUE" then some true
  else if s = "false" ∨ s = "False" ∨ s = "FALSE" then some false
  else none

def namesNull (s : String) : Bool := s = "~" ∨ s = "null" ∨ s = "Null" ∨ s = "NULL"

/-- The value of a plain scalar: empty and the names of null are null, then
booleans, then integers as 64-bit unsigned, 64-bit signed, and 128-bit unsigned
and signed, the last two being refused as too wide; then floating values unless
the text is a zero followed by digits; and everything else is a string. -/
def resolvePlain (s : String) : Except String Yaml := do
  let cs := s.toList
  if s.isEmpty ∨ namesNull s then return .null
  if let some b := boolValue? s then return .bool b
  if let some v ← intValue? cs then return v
  if leadingZeroDigits cs then return .str s
  match floatValue? cs with
  | some v => pure v
  | none => pure (.str s)

end Yaml

end DenyPolicy
