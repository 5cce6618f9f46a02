/-!
# Binary64 magnitudes

A finite non-negative binary64 value is `mantissa · 2^exponent` with a mantissa
below `2^53` and an exponent of at least `-1074`; a mantissa below `2^52` is
allowed only at exponent `-1074` (zero and the subnormal values), so every
value has one form.  The largest finite value is `(2^53 - 1) · 2^971`.

`Binary64.nearest` rounds a positive fraction to the nearest such value, a tie
going to the even mantissa, and reports a value beyond the largest finite one;
multiplication and division of two values round their exact result the same
way.  Two readers of decimal text are built on it:

* `Binary64.ofDecimal` rounds `digits · 10^exponent` correctly;
* `Binary64.scaleByTen` follows the steps of a fast JSON reader: the significand
  is rounded to binary64, then multiplied or divided once by the binary64
  nearest to a power of ten, dividing first by `10^308` while the exponent is
  below `-308`; an exponent above `308` or a product beyond the largest finite
  value is out of range.  Its results may differ from the correctly rounded ones
  in the last place.
-/

namespace DenyPolicy

/-- A finite non-negative binary64 value `mantissa · 2^exponent`. -/
structure Binary64 where
  mantissa : Nat
  exponent : Int
  deriving Repr, DecidableEq, Inhabited

namespace Binary64

def minExponent : Int := -1074

def maxExponent : Int := 971

def zero : Binary64 := ⟨0, minExponent⟩

def isZero (x : Binary64) : Bool := x.mantissa = 0

def twoPower (k : Int) : Nat × Nat := (Nat.pow 2 k.toNat, Nat.pow 2 (-k).toNat)

def scaledQuotient (num den : Nat) (q : Int) : Nat × Nat × Nat :=
  let n := num * (twoPower q).2
  let d := den * (twoPower q).1
  (n / d, n % d, d)

/-- The value nearest to `num / den`, ties to an even mantissa; `none` when it
lies beyond the largest finite value.  `den` must be positive. -/
def nearest (num den : Nat) : Option Binary64 :=
  if num = 0 then some zero
  else
    let q0 : Int := (Nat.log2 num : Int) - Nat.log2 den - 52
    let q1 := if (scaledQuotient num den q0).1 < Nat.pow 2 52 then q0 - 1 else q0
    let q := max q1 minExponent
    let (m, r, d) := scaledQuotient num den q
    let m := if 2 * r > d ∨ (2 * r = d ∧ m % 2 = 1) then m + 1 else m
    let (m, q) := if m = Nat.pow 2 53 then (Nat.pow 2 52, q + 1) else (m, q)
    if q > maxExponent then none else some ⟨m, q⟩

def ofNat (n : Nat) : Option Binary64 := nearest n 1

def toFraction (x : Binary64) : Nat × Nat :=
  (x.mantissa * (twoPower x.exponent).1, (twoPower x.exponent).2)

def mul (x y : Binary64) : Option Binary64 :=
  let (a, b) := x.toFraction
  let (c, d) := y.toFraction
  nearest (a * c) (b * d)

def div (x y : Binary64) : Option Binary64 :=
  let (a, b) := x.toFraction
  let (c, d) := y.toFraction
  nearest (a * d) (b * c)

def ofDecimal (digits : Nat) (exponent : Int) : Option Binary64 :=
  let lead : Int := (toString digits).length + exponent
  if digits = 0 then some zero
  else if lead > 310 then none
  else if lead < -330 then some zero
  else nearest (digits * Nat.pow 10 exponent.toNat) (Nat.pow 10 (-exponent).toNat)

def powerOfTen (k : Nat) : Binary64 := (nearest (Nat.pow 10 k) 1).getD zero

def shrink : Nat → Binary64 → Int → Option Binary64
  | 0, x, _ => some x
  | fuel + 1, x, e =>
    if -308 ≤ e then (div x (powerOfTen e.natAbs))
    else if x.isZero then some x
    else (div x (powerOfTen 308)).bind fun y => shrink fuel y (e + 308)

/-- `significand · 10^exponent` computed in binary64 steps; `none` when out of
range.  See the module header for the steps. -/
def scaleByTen (significand : Nat) (exponent : Int) : Option Binary64 := do
  let f ← ofNat significand
  if 0 ≤ exponent then
    if exponent ≤ 308 then mul f (powerOfTen exponent.toNat)
    else if f.isZero then some f
    else none
  else shrink (exponent.natAbs / 308 + 2) f exponent

end Binary64

end DenyPolicy
