import DenyPolicy.Proofs.KeyedView
/-!
# Fuel for checking a value

`Schema.check` walks a value with fuel, one step for each call.  The walk takes
two steps for each node of the value at most, plus a few that depend only on the
schema: the steps through an optional or a wrapper that take no node, the
members of a record written positionally that are absent and passed over, and
the look-up of a tagged record's kind.  `Schema.cost` counts those.

Above `2 * v.nodeCount + s.cost` the answer no longer depends on the fuel
(`Schema.check_eq_of_le`).  The same holds of each loop of the check, with its own
bound; for the loops over the entries of a map the bound is `2 * n - e` for `n`
nodes in `e` entries, since each entry takes one step and has two nodes at
least.  All the bounds are proved together (`Schema.settled`), by induction on
the fuel, each step calling the others with one step less.
-/

namespace DenyPolicy

namespace Schema

open Yaml

mutual
/-- The steps of fuel a check against the schema takes beyond two for each node
of the value. -/
def cost : Schema → Nat
  | .optional s => s.cost + 1
  | .list s => s.cost + 1
  | .dictionary s => s.cost + 1
  | .record _ members => membersCost members + members.length + 1
  | .tagged _ _ kinds => kindsCost kinds + 1
  | .text | .flag | .unsigned .. | .choice .. | .anything | .parsed .. => 1

def membersCost : Members → Nat
  | [] => 0
  | (_, _, s) :: rest => max s.cost (membersCost rest)

def kindsCost : List (String × Members) → Nat
  | [] => 0
  | (_, members) :: rest => max (membersCost members + members.length + 2) (kindsCost rest)
end

theorem cost_le_membersCost {name : String} {p : Presence} {s : Schema} :
    ∀ {members : Members}, (name, p, s) ∈ members → s.cost ≤ membersCost members
  | _ :: rest, .head _ => by simp only [membersCost]; omega
  | (_, _, _) :: rest, .tail _ h => by
    have := cost_le_membersCost h
    simp only [membersCost]; omega

theorem cost_le_of_memberNamed {members : Members} {name : String} {p : Presence} {s : Schema}
    (h : memberNamed members name = some (p, s)) : s.cost ≤ membersCost members := by
  obtain ⟨⟨n, p', s'⟩, hfind, heq⟩ := Option.map_eq_some_iff.mp h
  cases heq
  exact cost_le_membersCost (List.mem_of_find?_eq_some hfind)

theorem membersCost_le_of_lookup {k : String} {members : Members} :
    ∀ {kinds : List (String × Members)}, kinds.lookup k = some members →
      membersCost members + members.length + 2 ≤ kindsCost kinds
  | [], h => by simp at h
  | (k', ms) :: rest, h => by
    simp only [kindsCost]
    by_cases hk : k = k'
    · subst hk
      simp only [List.lookup_cons, beq_self_eq_true, Option.some.injEq] at h
      subst h; omega
    · have hne : (k == k') = false := beq_false_of_ne hk
      simp only [List.lookup_cons, hne] at h
      have := membersCost_le_of_lookup h
      omega

theorem nodeCount_pos (v : Yaml) : 1 ≤ v.nodeCount := by
  cases v <;> simp only [Yaml.nodeCount] <;> omega

theorem nodeCountEntries_reverse (es : List (Yaml × Yaml)) :
    nodeCountEntries es.reverse = nodeCountEntries es :=
  Json.nodeCountEntries_eq_of_perm (List.reverse_perm es)

theorem length_le_nodeCountEntries : ∀ es : List (Yaml × Yaml), 2 * es.length ≤ nodeCountEntries es
  | [] => by simp [nodeCountEntries]
  | (k, v) :: es => by
    have := length_le_nodeCountEntries es
    have := nodeCount_pos k
    have := nodeCount_pos v
    simp only [nodeCountEntries, List.length_cons]; omega

/-- Fuel `f` is settled when, for every call of the check whose bound it meets,
one step more changes nothing. -/
structure Settled (f : Nat) : Prop where
  check : ∀ r s v, 2 * v.nodeCount + s.cost ≤ f → Schema.check r (f + 1) s v = Schema.check r f s v
  items : ∀ r s xs, 2 * nodeCountItems xs + s.cost + 1 ≤ f →
    checkItems r (f + 1) s xs = checkItems r f s xs
  dictionary : ∀ r s es, 2 * nodeCountEntries es + s.cost + 1 ≤ f →
    checkDictionary r (f + 1) s es = checkDictionary r f s es
  record : ∀ r members es, 2 * nodeCountEntries es - es.length + membersCost members + 2 ≤ f →
    checkRecord r (f + 1) members es = checkRecord r f members es
  members : ∀ r members seen es, 2 * nodeCountEntries es - es.length + membersCost members + 1 ≤ f →
    checkMembers r (f + 1) members seen es = checkMembers r f members seen es
  positional : ∀ r name members xs,
    2 * nodeCountItems xs + membersCost members + members.length + 2 ≤ f →
    checkPositional r (f + 1) name members xs = checkPositional r f name members xs
  places : ∀ r expecting i members xs,
    2 * nodeCountItems xs + membersCost members + members.length + 1 ≤ f →
    checkPlaces r (f + 1) expecting i members xs = checkPlaces r f expecting i members xs
  tagged : ∀ r tag kinds es aside kind,
    2 * nodeCountEntries es + (2 * nodeCountEntries aside - aside.length) + kindsCost kinds + 1 ≤ f →
    checkTagged r (f + 1) tag kinds es aside kind = checkTagged r f tag kinds es aside kind
  taggedItems : ∀ r name tag kinds xs, 2 * nodeCountItems xs + kindsCost kinds + 1 ≤ f →
    checkTaggedItems r (f + 1) name tag kinds xs = checkTaggedItems r f name tag kinds xs

section Steps

variable {f : Nat} (ih : ∀ g < f, Settled g)
include ih

theorem check_step (r : ValueRules) (s : Schema) (v : Yaml) (h : 2 * v.nodeCount + s.cost ≤ f) :
    check r (f + 1) s v = check r f s v := by
  obtain ⟨f, rfl⟩ : ∃ g, f = g + 1 := ⟨f - 1, by have := nodeCount_pos v; omega⟩
  have hs := ih f (by omega)
  rcases v with _ | _ | (_ | _ | _) | _ | _ | _ | _ | _ | _ <;> cases s <;>
    simp (disch := (simp only [Yaml.nodeCount, nodeCountEntries, List.length_nil, cost] at h ⊢; omega))
      only [Schema.check, hs.check r, hs.items r, hs.dictionary r, hs.record r, hs.positional r,
        hs.tagged r, hs.taggedItems r]

theorem items_step (r : ValueRules) (s : Schema) (xs : List Yaml)
    (h : 2 * nodeCountItems xs + s.cost + 1 ≤ f) : checkItems r (f + 1) s xs = checkItems r f s xs := by
  obtain ⟨f, rfl⟩ : ∃ g, f = g + 1 := ⟨f - 1, by omega⟩
  have hs := ih f (by omega)
  cases xs with
  | nil => simp only [checkItems]
  | cons x xs =>
    have := nodeCount_pos x
    simp only [nodeCountItems] at h
    rw [checkItems, checkItems, hs.check r s x (by omega), hs.items r s xs (by omega)]

theorem dictionary_step (r : ValueRules) (s : Schema) (es : List (Yaml × Yaml))
    (h : 2 * nodeCountEntries es + s.cost + 1 ≤ f) :
    checkDictionary r (f + 1) s es = checkDictionary r f s es := by
  obtain ⟨f, rfl⟩ : ∃ g, f = g + 1 := ⟨f - 1, by omega⟩
  have hs := ih f (by omega)
  match es with
  | [] => simp only [checkDictionary]
  | (k, v) :: es =>
    have := nodeCount_pos k
    simp only [nodeCountEntries] at h
    simp only [checkDictionary, hs.check r s v (by omega), hs.dictionary r s es (by omega)]

theorem record_step (r : ValueRules) (members : Members) (es : List (Yaml × Yaml))
    (h : 2 * nodeCountEntries es - es.length + membersCost members + 2 ≤ f) :
    checkRecord r (f + 1) members es = checkRecord r f members es := by
  obtain ⟨f, rfl⟩ : ∃ g, f = g + 1 := ⟨f - 1, by omega⟩
  rw [checkRecord, checkRecord, (ih f (by omega)).members r members [] es (by omega)]

theorem members_step (r : ValueRules) (members : Members) (seen : List String)
    (es : List (Yaml × Yaml)) (h : 2 * nodeCountEntries es - es.length + membersCost members + 1 ≤ f) :
    checkMembers r (f + 1) members seen es = checkMembers r f members seen es := by
  obtain ⟨f, rfl⟩ : ∃ g, f = g + 1 := ⟨f - 1, by omega⟩
  have hs := ih f (by omega)
  match es with
  | [] => simp only [checkMembers]
  | (k, v) :: es =>
    have := nodeCount_pos k
    have := length_le_nodeCountEntries es
    simp only [nodeCountEntries, List.length_cons] at h
    have hrest : ∀ seen, checkMembers r (f + 1) members seen es = checkMembers r f members seen es :=
      fun seen => hs.members r members seen es (by omega)
    simp only [checkMembers]
    have hnamed : ∀ {name : String} {p : Presence} {s : Schema} (o : Option String),
        (o.bind fun name => (memberNamed members name).map (name, ·)) = some (name, p, s) →
        check r (f + 1) s v = check r f s v := by
      intro name p s o hnamed
      obtain ⟨n, -, hn⟩ := Option.bind_eq_some_iff.mp hnamed
      obtain ⟨⟨p', s'⟩, hm, heq⟩ := Option.map_eq_some_iff.mp hn
      cases heq
      have := cost_le_of_memberNamed hm
      exact hs.check r s v (by omega)
    split <;> (try split) <;> simp only [pure_eq_ok, ok_bind, error_bind]
    all_goals
      split
      · next heq => rw [hnamed _ heq, hrest]
      · rw [hrest]

theorem positional_step (r : ValueRules) (name : String) (members : Members) (xs : List Yaml)
    (h : 2 * nodeCountItems xs + membersCost members + members.length + 2 ≤ f) :
    checkPositional r (f + 1) name members xs = checkPositional r f name members xs := by
  obtain ⟨f, rfl⟩ : ∃ g, f = g + 1 := ⟨f - 1, by omega⟩
  rw [checkPositional, checkPositional, (ih f (by omega)).places r _ 0 members xs (by omega)]

theorem places_step (r : ValueRules) (expecting : String) (i : Nat) (members : Members) (xs : List Yaml)
    (h : 2 * nodeCountItems xs + membersCost members + members.length + 1 ≤ f) :
    checkPlaces r (f + 1) expecting i members xs = checkPlaces r f expecting i members xs := by
  obtain ⟨f, rfl⟩ : ∃ g, f = g + 1 := ⟨f - 1, by omega⟩
  have hs := ih f (by omega)
  match members, xs with
  | [], _ => simp only [checkPlaces]
  | (name, p, s) :: members, x :: xs =>
    have := nodeCount_pos x
    simp only [nodeCountItems, membersCost, List.length_cons] at h
    simp only [checkPlaces, hs.check r s x (by omega), hs.places r expecting (i + 1) members xs (by omega)]
  | (name, p, s) :: members, [] =>
    simp only [nodeCountItems, membersCost, List.length_cons] at h
    simp only [checkPlaces, hs.places r expecting (i + 1) members [] (by simp only [nodeCountItems]; omega)]

theorem tagged_step (r : ValueRules) (tag : String) (kinds : List (String × Members))
    (es aside : List (Yaml × Yaml)) (kind : Option String)
    (h : 2 * nodeCountEntries es + (2 * nodeCountEntries aside - aside.length) + kindsCost kinds + 1 ≤ f) :
    checkTagged r (f + 1) tag kinds es aside kind = checkTagged r f tag kinds es aside kind := by
  obtain ⟨f, rfl⟩ : ∃ g, f = g + 1 := ⟨f - 1, by omega⟩
  have hs := ih f (by omega)
  match es with
  | [] =>
    simp only [checkTagged]
    split
    · rfl
    · next k =>
      split
      · rfl
      · next members hlookup =>
        have := membersCost_le_of_lookup hlookup
        have := length_le_nodeCountEntries aside
        rw [hs.record _ members aside.reverse
          (by rw [nodeCountEntries_reverse, List.length_reverse]; omega)]
  | (k, v) :: es =>
    have := nodeCount_pos k
    have := nodeCount_pos v
    have := length_le_nodeCountEntries aside
    simp only [nodeCountEntries] at h
    simp only [checkTagged, hs.tagged r tag kinds es aside (some _) (by omega),
      hs.tagged r tag kinds es ((k, v) :: aside) kind
        (by simp only [nodeCountEntries, List.length_cons]; omega)]

theorem taggedItems_step (r : ValueRules) (name tag : String) (kinds : List (String × Members))
    (xs : List Yaml) (h : 2 * nodeCountItems xs + kindsCost kinds + 1 ≤ f) :
    checkTaggedItems r (f + 1) name tag kinds xs = checkTaggedItems r f name tag kinds xs := by
  obtain ⟨f, rfl⟩ : ∃ g, f = g + 1 := ⟨f - 1, by omega⟩
  have hs := ih f (by omega)
  match xs with
  | [] => simp only [checkTaggedItems]
  | first :: rest =>
    have := nodeCount_pos first
    simp only [nodeCountItems] at h
    simp only [checkTaggedItems]
    split
    · next k =>
      split
      · rfl
      · next members hlookup =>
        have := membersCost_le_of_lookup hlookup
        rw [hs.positional _ _ members rest (by omega)]
    · rfl

end Steps

theorem settled (f : Nat) : Settled f := by
  induction f using Nat.strongRecOn with
  | ind f ih =>
    exact ⟨check_step ih, items_step ih, dictionary_step ih, record_step ih, members_step ih,
      positional_step ih, places_step ih, tagged_step ih, taggedItems_step ih⟩

theorem eq_of_step_eq {α : Type} {F : Nat → α} {b : Nat} (step : ∀ f, b ≤ f → F (f + 1) = F f)
    {f g : Nat} (hf : b ≤ f) (hg : b ≤ g) : F f = F g := by
  have from_b : ∀ n, F (b + n) = F b := by
    intro n
    induction n with
    | zero => rfl
    | succ n ih => rw [← Nat.add_assoc, step _ (by omega), ih]
  obtain ⟨m, rfl⟩ := Nat.exists_eq_add_of_le hf
  obtain ⟨n, rfl⟩ := Nat.exists_eq_add_of_le hg
  rw [from_b, from_b]

theorem check_eq_of_le {r : ValueRules} {s : Schema} {v : Yaml} {f g : Nat}
    (hf : 2 * v.nodeCount + s.cost ≤ f) (hg : 2 * v.nodeCount + s.cost ≤ g) :
    check r f s v = check r g s v :=
  @eq_of_step_eq _ (fun f => check r f s v) _ (fun f h => (settled f).check r s v h) _ _ hf hg

theorem checkRecord_eq_of_le {r : ValueRules} {members : Members} {es : List (Yaml × Yaml)} {f g : Nat}
    (hf : 2 * nodeCountEntries es - es.length + membersCost members + 2 ≤ f)
    (hg : 2 * nodeCountEntries es - es.length + membersCost members + 2 ≤ g) :
    checkRecord r f members es = checkRecord r g members es :=
  @eq_of_step_eq _ (fun f => checkRecord r f members es) _ (fun f h => (settled f).record r members es h) _ _
    hf hg

end Schema

end DenyPolicy
