/-!
# Similarity of names

When a command line names something unknown, the names it could have meant are
those close to it by the Jaro similarity: the share of characters the two names
have in common, near the same place, and in the same order.  `jaro` computes it
in binary64 arithmetic, the way a suggestion's cut-off compares it; `similarNames`
keeps the names above `0.7`, least similar first.
-/

namespace DenyPolicy
namespace Text

def freeMatch (b : Array Char) (taken : Array Bool) (c : Char) (lo hi : Nat) : Option Nat :=
  (List.range' lo (hi - lo)).find? fun j => b[j]? == some c && taken[j]? == some false

def matchPlaces (a : List Char) (b : Array Char) (range : Nat) : List Nat × Array Bool :=
  a.zipIdx.foldl (fun (found, taken) (c, i) =>
    match freeMatch b taken c (i - range) (min b.size (i + range + 1)) with
    | some j => (found ++ [i], taken.set! j true)
    | none => (found, taken)) ([], Array.replicate b.size false)

/-- The Jaro similarity of two names, between `0` and `1`: with `m` characters
matched and `t` of them out of order (counted in pairs), it is the mean of `m/|a|`,
`m/|b|` and `(m - t)/m`.  Two empty names are alike; an empty name is like no
other. -/
def jaro (a b : List Char) : Float :=
  if a.isEmpty && b.isEmpty then 1.0
  else if a.isEmpty || b.isEmpty then 0.0
  else
    let bs := b.toArray
    let (found, taken) := matchPlaces a bs (max a.length b.length / 2 - 1)
    let m := found.length
    if m = 0 then 0.0
    else
      let fromA := found.filterMap (a[·]?)
      let fromB := ((List.range bs.size).filter (taken[·]? == some true)).filterMap (bs[·]?)
      let t := ((fromA.zip fromB).filter fun (x, y) => x != y).length / 2
      (m.toFloat / a.length.toFloat + m.toFloat / b.length.toFloat +
        (m - t).toFloat / m.toFloat) / 3.0

/-- The names more than `0.7` similar to a word, least similar first, names of
equal similarity in their given order. -/
def similarNames (word : String) (names : List String) : List String :=
  let scored := (names.map fun n => (jaro word.toList n.toList, n)).filter (·.1 > 0.7)
  (scored.mergeSort fun x y => x.1 <= y.1).map (·.2)

end Text
end DenyPolicy
