import DenyPolicy.Json.Basic
import DenyPolicy.Decimal.Shortest
/-!
# Writing JSON

Two layouts of one document: the compact one, with no blank anywhere, which is
the text that digests and chain hashes are taken of, and the indented one,
two blanks a level, that manifests are stored in.

In a string a quote and a backslash are escaped, the characters 8, 9, 10, 12
and 13 take their one-letter escapes, every other character below 32 is written
`\u00xx` in lowercase hexadecimal, and everything else is written as itself.
A floating value is written from its shortest digits (see `Binary64.shortest`),
positionally while its
decimal point falls within sixteen places of the first digit, with `.0` when it
is whole, and in `d.ddde±x` form otherwise.
-/

namespace DenyPolicy

def hexDigit (n : Nat) : Char :=
  if n < 10 then Char.ofNat (48 + n) else Char.ofNat (87 + n)

/-- The escape of one character inside a JSON string. -/
def escapeChar (c : Char) : List Char :=
  if c = '"' then ['\\', '"']
  else if c = '\\' then ['\\', '\\']
  else if c = '\n' then ['\\', 'n']
  else if c = '\r' then ['\\', 'r']
  else if c = '\t' then ['\\', 't']
  else if c.toNat = 8 then ['\\', 'b']
  else if c.toNat = 12 then ['\\', 'f']
  else if c.toNat < 32 then
    ['\\', 'u', '0', '0', hexDigit (c.toNat / 16), hexDigit (c.toNat % 16)]
  else [c]

def quote (s : String) : String :=
  String.ofList ('"' :: (s.toList.flatMap escapeChar ++ ['"']))

def decimalLength (n : Nat) : Nat :=
  (toString n).length

def zeros (n : Nat) : String :=
  String.ofList (List.replicate n '0')

def trimDecimal (digits : Nat) (exponent : Int) : Nat × Int :=
  if h : digits ≠ 0 ∧ digits % 10 = 0 then
    have : digits / 10 < digits := Nat.div_lt_self (Nat.pos_of_ne_zero h.1) (by decide)
    trimDecimal (digits / 10) (exponent + 1)
  else (digits, exponent)
termination_by digits

/-- The text of a floating value with shortest digits `digits · 10^exponent`:
positional with a point when it lies from `1e-5` up to `1e16`, otherwise one
digit before the point and an exponent, `-` before a negative one and `raise`
before a positive one. -/
def renderFloatWith (raise : String) (negative : Bool) (digits : Nat) (exponent : Int) : String :=
  let sign := if negative then "-" else ""
  let (d, k) := trimDecimal digits exponent
  if d = 0 then sign ++ "0.0" else
  let text := toString d
  let len : Int := text.length
  let kk := len + k
  let body :=
    if 0 ≤ k ∧ kk ≤ 16 then text ++ zeros k.toNat ++ ".0"
    else if 0 < kk ∧ kk ≤ 16 then
      String.ofList (text.toList.take kk.toNat) ++ "." ++ String.ofList (text.toList.drop kk.toNat)
    else if -5 < kk ∧ kk ≤ 0 then "0." ++ zeros (-kk).toNat ++ text
    else
      let mant := match text.toList with
        | [c] => String.ofList [c]
        | c :: rest => String.ofList (c :: '.' :: rest)
        | [] => ""
      mant ++ (if 0 < kk - 1 then "e" ++ raise else "e") ++ toString (kk - 1)
  sign ++ body

/-- The text of a floating value as JSON writes it: a positive exponent is
signed, `1e+21`. -/
def renderFloat (negative : Bool) (digits : Nat) (exponent : Int) : String :=
  renderFloatWith "+" negative digits exponent

/-- The text of a number. -/
def Numeral.render : Numeral → String
  | .nat n => toString n
  | .negInt n => "-" ++ toString n
  | .float neg v => let (d, e) := v.shortest; renderFloat neg d e

namespace Json

mutual
/-- The compact text of a value. -/
def compact : Json → String
  | .null => "null"
  | .bool true => "true"
  | .bool false => "false"
  | .num n => n.render
  | .str s => quote s
  | .arr xs => "[" ++ compactItems xs ++ "]"
  | .obj fs => "\x7b" ++ compactFields fs ++ "\x7d"

def compactItems : List Json → String
  | [] => ""
  | [x] => compact x
  | x :: xs => compact x ++ "," ++ compactItems xs

def compactFields : List (String × Json) → String
  | [] => ""
  | [(k, x)] => quote k ++ ":" ++ compact x
  | (k, x) :: xs => quote k ++ ":" ++ compact x ++ "," ++ compactFields xs
end

def newline (depth : Nat) : String :=
  "\n" ++ String.ofList (List.replicate (2 * depth) ' ')

mutual
def prettyAt (depth : Nat) : Json → String
  | .arr [] => "[]"
  | .obj [] => "{}"
  | .arr xs => "[" ++ prettyItems (depth + 1) xs ++ newline depth ++ "]"
  | .obj fs => "\x7b" ++ prettyFields (depth + 1) fs ++ newline depth ++ "\x7d"
  | v => compact v

def prettyItems (depth : Nat) : List Json → String
  | [] => ""
  | [x] => newline depth ++ prettyAt depth x
  | x :: xs => newline depth ++ prettyAt depth x ++ "," ++ prettyItems depth xs

def prettyFields (depth : Nat) : List (String × Json) → String
  | [] => ""
  | [(k, x)] => newline depth ++ quote k ++ ": " ++ prettyAt depth x
  | (k, x) :: xs => newline depth ++ quote k ++ ": " ++ prettyAt depth x ++ "," ++ prettyFields depth xs
end

def pretty (v : Json) : String := prettyAt 0 v

end Json

end DenyPolicy
