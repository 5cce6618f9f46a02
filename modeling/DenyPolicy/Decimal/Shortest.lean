import DenyPolicy.Decimal.Binary64
/-!
# Shortest decimal digits

The digits printed for a binary64 value are the fewest that read back to it:
of all decimals `c · 10^k` that lie in the value's rounding interval, those
with the fewest significant digits, and of these the one nearest to the value,
a tie going to the even `c`.  The rounding interval reaches half a unit in the
last place on either side, only a quarter below a power of two whose
predecessor has the smaller exponent, and includes its ends exactly when the
mantissa is even.

On each grid `10^k` only the two neighbours of the value can be nearest, so
the search tries one to seventeen digits and stops at the first grid that has
a neighbour inside the interval.  All comparisons are exact.
-/

namespace DenyPolicy

namespace Binary64

def compareScaled (c : Nat) (k : Int) (a : Nat) (e : Int) : Ordering :=
  compare (c * Nat.pow 10 k.toNat * Nat.pow 2 (-e).toNat) (a * Nat.pow 2 e.toNat * Nat.pow 10 (-k).toNat)

/-- Whether `c · 10^k` lies in the rounding interval of the non-zero value `x`. -/
def inInterval (x : Binary64) (c : Nat) (k : Int) : Bool :=
  let m := x.mantissa
  let e := x.exponent - 2
  let lowGap := if m = Nat.pow 2 52 ∧ x.exponent > minExponent then 1 else 2
  let inclusive := m % 2 = 0
  let aboveLow := match compareScaled c k (4 * m - lowGap) e with
    | .gt => true
    | .eq => inclusive
    | .lt => false
  let belowHigh := match compareScaled c k (4 * m + 2) e with
    | .lt => true
    | .eq => inclusive
    | .gt => false
  aboveLow && belowHigh

def settleExponent : Nat → Binary64 → Int → Int
  | 0, _, g => g
  | fuel + 1, x, g =>
    if compareScaled 1 (g + 1) x.mantissa x.exponent != .gt then settleExponent fuel x (g + 1)
    else if compareScaled 1 g x.mantissa x.exponent == .gt then settleExponent fuel x (g - 1)
    else g

def decimalExponent (x : Binary64) : Int :=
  settleExponent 8 x (((Nat.log2 x.mantissa : Int) + x.exponent) * 30103 / 100000)

def floorScaled (x : Binary64) (k : Int) : Nat :=
  (x.mantissa * Nat.pow 2 x.exponent.toNat * Nat.pow 10 (-k).toNat) /
    (Nat.pow 2 (-x.exponent).toNat * Nat.pow 10 k.toNat)

/-- The candidate with `n` significant digits, if the grid has one in the interval. -/
def candidate (x : Binary64) (lead : Int) (n : Nat) : Option (Nat × Int) :=
  let k := lead - n + 1
  let c := floorScaled x k
  match inInterval x c k, inInterval x (c + 1) k with
  | true, true =>
    match compareScaled (2 * c + 1) k (2 * x.mantissa) x.exponent with
    | .gt => some (c, k)
    | .lt => some (c + 1, k)
    | .eq => some (if c % 2 = 0 then c else c + 1, k)
  | true, false => some (c, k)
  | false, true => some (c + 1, k)
  | false, false => none

/-- The same decimal without trailing zero digits: a candidate rounded up from
nines, such as `10 · 10^k`, is `1 · 10^(k+1)`. -/
def dropZeros : Nat → Nat × Int → Nat × Int
  | 0, ck => ck
  | fuel + 1, (c, k) => if c ≠ 0 ∧ c % 10 = 0 then dropZeros fuel (c / 10, k + 1) else (c, k)

def shortest (x : Binary64) : Nat × Int :=
  if x.isZero then (0, 0)
  else
    let lead := x.decimalExponent
    dropZeros 17
      (((List.range 17).findSome? fun i => candidate x lead (i + 1)).getD (floorScaled x (lead - 16), lead - 16))

end Binary64

end DenyPolicy
