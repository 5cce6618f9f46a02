import DenyPolicy.Proofs.CheckFuel
/-!
# The order of a map's entries

A JSON object is checked in its keyed view, its members sorted by name, while a
reader of the text meets them in the order they are written.  When no name is
written twice, the order changes which refusal comes first but not whether there
is one, nor the value accepted.

With the fuel it needs, the check of a list or a dictionary is the check of
each item's value in turn (`Schema.checkDictionary_eq_mapM`), and the check of a record is
the check of each entry that names a member, then the record closed on what was
found (`Schema.checkMembers_eq_mapM`).  Checking a list of entries one by one
refuses in any order of the entries if it refuses in one (`Schema.mapM_perm`),
and what the two closings make of the same members found in two orders is the
same.  A tagged record sets its entries aside until it has met the tag, and the
order in which they were set aside is lost in the same way.
-/

namespace DenyPolicy

namespace Schema

open Yaml

def checkFully (r : ValueRules) (s : Schema) (v : Yaml) : Except Mismatch Json :=
  check r (2 * v.nodeCount + s.cost) s v

theorem check_eq_checkFully {r : ValueRules} {s : Schema} {v : Yaml} {f : Nat}
    (h : 2 * v.nodeCount + s.cost ≤ f) : check r f s v = checkFully r s v :=
  check_eq_of_le h (Nat.le_refl _)

/-! ## Outcomes up to the order of entries -/

def SameAnswer {ε α : Type} : Except ε α → Except ε α → Prop
  | .ok a, .ok b => a = b
  | .error _, .error _ => True
  | _, _ => False

/-- Two outcomes that are both refusals, or successes with the same items in
some order. -/
def SameItems {ε α : Type} : Except ε (List α) → Except ε (List α) → Prop
  | .ok a, .ok b => a.Perm b
  | .error _, .error _ => True
  | _, _ => False

section Outcomes

variable {ε α β : Type}

theorem SameAnswer.refl : ∀ o : Except ε α, SameAnswer o o
  | .ok _ => rfl
  | .error _ => trivial

theorem SameAnswer.trans : ∀ {a b c : Except ε α}, SameAnswer a b → SameAnswer b c → SameAnswer a c
  | .ok _, .ok _, .ok _, h₁, h₂ => Eq.trans h₁ h₂
  | .error _, .error _, .error _, _, _ => trivial
  | .ok _, .error _, _, h, _ => h.elim
  | .error _, .ok _, _, h, _ => h.elim
  | .ok _, .ok _, .error _, _, h => h.elim
  | .error _, .error _, .ok _, _, h => h.elim

theorem SameItems.refl : ∀ o : Except ε (List α), SameItems o o
  | .ok a => List.Perm.refl a
  | .error _ => trivial

theorem SameItems.trans :
    ∀ {a b c : Except ε (List α)}, SameItems a b → SameItems b c → SameItems a c
  | .ok _, .ok _, .ok _, h₁, h₂ => List.Perm.trans h₁ h₂
  | .error _, .error _, .error _, _, _ => trivial
  | .ok _, .error _, _, h, _ => h.elim
  | .error _, .ok _, _, h, _ => h.elim
  | .ok _, .ok _, .error _, _, h => h.elim
  | .error _, .error _, .ok _, _, h => h.elim

theorem SameItems.bind_cons {a b : Except ε (List α)} (h : SameItems a b) (y : α) :
    SameItems (a >>= fun ys => pure (y :: ys)) (b >>= fun ys => pure (y :: ys)) := by
  match a, b, h with
  | .ok _, .ok _, h => exact List.Perm.cons y h
  | .error _, .error _, _ => trivial

theorem SameItems.bind {a b : Except ε (List α)} (h : SameItems a b) {k : List α → Except ε β}
    (hk : ∀ l l', a = .ok l → l.Perm l' → k l = k l') : SameAnswer (a >>= k) (b >>= k) := by
  match a, b, h with
  | .ok l, .ok l', h =>
    rw [ok_bind, ok_bind, hk l l' rfl h]
    exact SameAnswer.refl _
  | .error _, .error _, _ => trivial

/-- Checking items one by one in two orders of the same items: a refusal in one
order is a refusal in the other, and the items accepted are the same. -/
theorem mapM_perm (g : α → Except ε β) {l l' : List α} (h : l.Perm l') :
    SameItems (l.mapM g) (l'.mapM g) := by
  induction h with
  | nil => exact SameItems.refl _
  | cons x _ ih =>
    simp only [List.mapM_cons]
    cases g x with
    | error e => trivial
    | ok y => exact ih.bind_cons y
  | swap x y l =>
    simp only [List.mapM_cons]
    cases g x <;> cases g y <;> cases l.mapM g <;>
      simp only [ok_bind, error_bind, pure_eq_ok, SameItems, List.Perm.swap]
  | trans _ _ ih₁ ih₂ => exact ih₁.trans ih₂

/-- What a check of keyed items keeps of each item's key. -/
theorem map_fst_of_mapM {γ : Type} {g : String × γ → Except ε β} {key : β → String}
    (hg : ∀ kv y, g kv = .ok y → key y = kv.1) :
    ∀ {l : List (String × γ)} {out : List β}, l.mapM g = .ok out → out.map key = l.map Prod.fst
  | [], out, h => by
    simp only [List.mapM_nil, pure_eq_ok, Except.ok.injEq] at h
    simp [← h]
  | kv :: l, out, h => by
    simp only [List.mapM_cons] at h
    cases hkv : g kv with
    | error e => simp [hkv] at h
    | ok y =>
      cases hl : l.mapM g with
      | error e => simp [hkv, hl] at h
      | ok ys =>
        simp only [hkv, hl, ok_bind, pure_eq_ok, Except.ok.injEq] at h
        rw [← h, List.map_cons, List.map_cons, hg kv y hkv, map_fst_of_mapM hg hl]

end Outcomes

/-! ## Lists -/

theorem checkItems_eq_mapM {r : ValueRules} {s : Schema} :
    ∀ {ys : List Yaml} {f : Nat}, 2 * nodeCountItems ys + s.cost + 1 ≤ f →
      checkItems r f s ys = ys.mapM (checkFully r s)
  | [], f + 1, _ => rfl
  | y :: ys, f + 1, h => by
    simp only [nodeCountItems] at h
    have := nodeCount_pos y
    rw [checkItems, check_eq_checkFully (by omega), checkItems_eq_mapM (by omega), List.mapM_cons]

/-! ## Dictionaries -/

theorem nodeCountEntries_perm {gs gs' : List (String × Json)} (h : gs.Perm gs') :
    nodeCountEntries (Json.asDocumentFields gs) = nodeCountEntries (Json.asDocumentFields gs') := by
  rw [Json.asDocumentFields_eq_map, Json.asDocumentFields_eq_map]
  exact Json.nodeCountEntries_eq_of_perm (h.map _)

theorem sortFields_eq_of_perm {fs fs' : List (String × Json)} (h : fs.Perm fs')
    (hn : (fs.map Prod.fst).Nodup) : Json.sortFields fs = Json.sortFields fs' := by
  have hn' : (fs'.map Prod.fst).Nodup := ((h.map Prod.fst).nodup_iff).mp hn
  have hperm : (Json.sortFields fs).Perm (Json.sortFields fs') :=
    ((Json.sortFields_perm hn).trans h).trans (Json.sortFields_perm hn').symm
  refine @List.Perm.eq_of_pairwise _ (fun a b => a.1 < b.1) _ _ ?_ (Json.sortFields_ascending fs)
    (Json.sortFields_ascending fs') hperm
  intro a b _ _ hab hba
  exact absurd hba (String.lt_asymm hab)

theorem normalize_obj_eq_of_perm {fs fs' : List (String × Json)} (h : fs.Perm fs')
    (hn : (fs.map Prod.fst).Nodup) : (Json.obj fs).normalize = (Json.obj fs').normalize := by
  have hperm : (Json.normalizeFields fs).Perm (Json.normalizeFields fs') := by
    rw [Json.normalizeFields_eq_map, Json.normalizeFields_eq_map]
    exact h.map _
  rw [Json.normalize_obj, Json.normalize_obj,
    sortFields_eq_of_perm hperm (by rwa [Json.map_fst_normalizeFields])]

def checkEntry (r : ValueRules) (s : Schema) (kv : String × Json) : Except Mismatch (String × Json) :=
  (checkFully r s kv.2.asDocument).map (kv.1, ·)

/-- With the fuel it needs, a dictionary is checked entry by entry. -/
theorem checkDictionary_eq_mapM {r : ValueRules} {s : Schema} :
    ∀ {gs : List (String × Json)} {f : Nat},
      2 * nodeCountEntries (Json.asDocumentFields gs) + s.cost + 1 ≤ f →
      checkDictionary r f s (Json.asDocumentFields gs) = gs.mapM (checkEntry r s)
  | [], f + 1, _ => rfl
  | (k, x) :: gs, f + 1, h => by
    have := nodeCount_pos (Yaml.str k)
    simp only [Json.asDocumentFields, nodeCountEntries] at h
    rw [Json.asDocumentFields, checkDictionary, check_eq_checkFully (by omega),
      checkDictionary_eq_mapM (by omega), List.mapM_cons, checkEntry]
    cases checkFully r s x.asDocument <;> rfl

theorem map_fst_of_checkEntries {r : ValueRules} {s : Schema} {gs : List (String × Json)}
    {out : List (String × Json)} (h : gs.mapM (checkEntry r s) = .ok out) :
    out.map Prod.fst = gs.map Prod.fst := by
  refine map_fst_of_mapM (fun kv y hy => ?_) h
  simp only [checkEntry] at hy
  cases hc : checkFully r s kv.2.asDocument <;> simp only [hc] at hy <;> cases hy
  rfl

/-- A dictionary checked in two orders of its entries gives the same answer. -/
theorem checkDictionary_perm {r : ValueRules} {s : Schema} {gs gs' : List (String × Json)}
    {f : Nat} (h : gs.Perm gs') (hn : (gs.map Prod.fst).Nodup)
    (hf : 2 * nodeCountEntries (Json.asDocumentFields gs) + s.cost + 1 ≤ f) :
    SameAnswer ((checkDictionary r f s (Json.asDocumentFields gs)).map fun fs => (Json.obj fs).normalize)
      ((checkDictionary r f s (Json.asDocumentFields gs')).map fun fs => (Json.obj fs).normalize) := by
  rw [checkDictionary_eq_mapM hf, checkDictionary_eq_mapM (by rwa [← nodeCountEntries_perm h])]
  have hsame := mapM_perm (checkEntry r s) h
  cases hl : gs.mapM (checkEntry r s) <;> cases hl' : gs'.mapM (checkEntry r s) <;>
    rw [hl, hl'] at hsame
  · trivial
  · exact hsame.elim
  · exact hsame.elim
  · next out out' =>
    exact normalize_obj_eq_of_perm hsame (by rw [map_fst_of_checkEntries hl]; exact hn)

/-! ## Records -/

def memberEntries (members : Members) (gs : List (String × Json)) : List (String × Schema × Json) :=
  gs.filterMap fun kv => (memberNamed members kv.1).map fun m => (kv.1, m.2, kv.2)

def checkMember (r : ValueRules) (e : String × Schema × Json) : Except Mismatch (String × Json) :=
  (checkFully r e.2.1 e.2.2.asDocument).map (e.1, ·)

theorem memberEntries_cons_of_some {members : Members} {kv : String × Json} {m : Presence × Schema}
    (h : memberNamed members kv.1 = some m) (gs : List (String × Json)) :
    memberEntries members (kv :: gs) = (kv.1, m.2, kv.2) :: memberEntries members gs := by
  simp only [memberEntries, List.filterMap_cons, h, Option.map_some]

theorem memberEntries_cons_of_none {members : Members} {kv : String × Json}
    (h : memberNamed members kv.1 = none) (gs : List (String × Json)) :
    memberEntries members (kv :: gs) = memberEntries members gs := by
  simp only [memberEntries, List.filterMap_cons, h, Option.map_none]

theorem map_fst_memberEntries_sublist (members : Members) :
    ∀ gs : List (String × Json), ((memberEntries members gs).map Prod.fst).Sublist (gs.map Prod.fst)
  | [] => List.Sublist.slnil
  | kv :: gs => by
    have ih := map_fst_memberEntries_sublist members gs
    cases hm : memberNamed members kv.1 with
    | none => rw [memberEntries_cons_of_none hm]; exact ih.cons _
    | some m => rw [memberEntries_cons_of_some hm]; exact ih.cons_cons _

theorem map_fst_of_checkMembers {r : ValueRules} {es : List (String × Schema × Json)}
    {found : List (String × Json)} (h : es.mapM (checkMember r) = .ok found) :
    found.map Prod.fst = es.map Prod.fst := by
  refine map_fst_of_mapM (fun e y hy => ?_) h
  simp only [checkMember] at hy
  cases hc : checkFully r e.2.1 e.2.2.asDocument <;> simp only [hc] at hy <;> cases hy
  rfl

/-- With the fuel it needs, the members of a record are found and checked entry
by entry, when the map names no member twice and none of those already seen. -/
theorem checkMembers_eq_mapM {r : ValueRules} {members : Members} :
    ∀ {gs : List (String × Json)} {seen : List String} {f : Nat}, (gs.map Prod.fst).Nodup →
      (∀ kv ∈ gs, kv.1 ∉ seen) →
      2 * nodeCountEntries (Json.asDocumentFields gs) - gs.length + membersCost members + 1 ≤ f →
      checkMembers r f members seen (Json.asDocumentFields gs) =
        (memberEntries members gs).mapM (checkMember r)
  | [], _, f + 1, _, _, _ => rfl
  | (k, x) :: gs, seen, f + 1, hn, hseen, h => by
    have := nodeCount_pos (Yaml.str k)
    have := length_le_nodeCountEntries (Json.asDocumentFields gs)
    have hlen : (Json.asDocumentFields gs).length = gs.length := by
      rw [Json.asDocumentFields_eq_map, List.length_map]
    simp only [Json.asDocumentFields, nodeCountEntries, List.length_cons] at h
    simp only [List.map_cons, List.nodup_cons] at hn
    have hrest : ∀ seen', (∀ kv ∈ gs, kv.1 ∉ seen') →
        checkMembers r f members seen' (Json.asDocumentFields gs) =
          (memberEntries members gs).mapM (checkMember r) :=
      fun seen' hs => checkMembers_eq_mapM hn.2 hs (by omega)
    rw [Json.asDocumentFields, checkMembers]
    simp only [Yaml.untag, pure_eq_ok, ok_bind, Option.bind_some]
    cases hm : memberNamed members k with
    | none =>
      rw [memberEntries_cons_of_none hm]
      exact hrest seen fun kv hkv => hseen kv (List.mem_cons_of_mem _ hkv)
    | some m =>
      rw [memberEntries_cons_of_some hm]
      obtain ⟨p, s⟩ := m
      have hcost := cost_le_of_memberNamed hm
      have hk : seen.contains k = false := by
        simpa using hseen (k, x) List.mem_cons_self
      simp only [Option.map_some, hk, Bool.false_eq_true, ↓reduceIte, List.mapM_cons, checkMember]
      rw [check_eq_checkFully (by omega), hrest (k :: seen) (fun kv hkv hks => ?_)]
      · cases checkFully r s x.asDocument <;> rfl
      · rcases List.mem_cons.mp hks with heq | hks
        · exact hn.1 (heq ▸ List.mem_map_of_mem hkv)
        · exact hseen kv (List.mem_cons_of_mem _ hkv) hks

def closeRecord (members : Members) (found : List (String × Json)) : Except Mismatch Json := do
  let absent ← absentMembers (found.map (·.1)) members
  pure (.obj (inOrder members (found ++ absent)))

theorem checkRecord_succ (r : ValueRules) (f : Nat) (members : Members) (es : List (Yaml × Yaml)) :
    checkRecord r (f + 1) members es = checkMembers r f members [] es >>= closeRecord members :=
  rfl

theorem absentMembers_congr {seen seen' : List String} (h : ∀ x, seen.contains x = seen'.contains x) :
    ∀ members : Members, absentMembers seen members = absentMembers seen' members
  | [] => rfl
  | (name, presence, s) :: rest => by
    simp only [absentMembers, h name, absentMembers_congr h rest]

theorem lookup_eq_of_perm {l l' : List (String × Json)} (h : l.Perm l') (hn : (l.map Prod.fst).Nodup)
    (k : String) : l.lookup k = l'.lookup k := by
  induction h with
  | nil => rfl
  | cons x _ ih =>
    simp only [List.map_cons, List.nodup_cons] at hn
    rw [List.lookup_cons, List.lookup_cons, ih hn.2]
  | swap x y l =>
    simp only [List.map_cons, List.nodup_cons, List.mem_cons, not_or] at hn
    rw [List.lookup_cons, List.lookup_cons, List.lookup_cons, List.lookup_cons]
    by_cases hy : k = y.1
    · have hx : (k == x.1) = false := beq_false_of_ne fun h => hn.1.1 (hy.symm.trans h)
      simp only [hy, beq_self_eq_true] at hx ⊢
      simp only [hx]
    · simp only [beq_false_of_ne hy]
  | trans h₁ _ ih₁ ih₂ => rw [ih₁ hn, ih₂ ((h₁.map Prod.fst).nodup_iff.mp hn)]

/-- The record closed on the members found does not depend on the order they were
found in. -/
theorem closeRecord_perm (members : Members) {found found' : List (String × Json)}
    (h : found.Perm found') (hn : (found.map Prod.fst).Nodup) :
    closeRecord members found = closeRecord members found' := by
  have hseen : ∀ x, (found.map (·.1)).contains x = (found'.map (·.1)).contains x :=
    fun _ => (h.map Prod.fst).contains_eq
  simp only [closeRecord, absentMembers_congr hseen]
  cases absentMembers (found'.map (·.1)) members with
  | error e => rfl
  | ok absent =>
    simp only [ok_bind, pure_eq_ok, Except.ok.injEq, Json.obj.injEq, inOrder]
    congr 1
    funext m
    rw [List.lookup_append, List.lookup_append, lookup_eq_of_perm h hn]

/-- A record checked in two orders of its entries gives the same answer, when no
name is written twice. -/
theorem checkRecord_perm {r : ValueRules} {members : Members} {gs gs' : List (String × Json)} {f : Nat}
    (h : gs.Perm gs') (hn : (gs.map Prod.fst).Nodup)
    (hf : 2 * nodeCountEntries (Json.asDocumentFields gs) - gs.length + membersCost members + 2 ≤ f) :
    SameAnswer (checkRecord r f members (Json.asDocumentFields gs))
      (checkRecord r f members (Json.asDocumentFields gs')) := by
  obtain ⟨f, rfl⟩ : ∃ g, f = g + 1 := ⟨f - 1, by omega⟩
  have hn' : (gs'.map Prod.fst).Nodup := ((h.map Prod.fst).nodup_iff).mp hn
  rw [checkRecord_succ, checkRecord_succ, checkMembers_eq_mapM hn (by simp) (by omega),
    checkMembers_eq_mapM hn' (by simp) (by rw [← nodeCountEntries_perm h, ← h.length_eq]; omega)]
  refine (mapM_perm (checkMember r) (h.filterMap _)).bind fun found found' hfound hperm => ?_
  exact closeRecord_perm members hperm
    (map_fst_of_checkMembers hfound ▸ (map_fst_memberEntries_sublist members gs).nodup hn)

/-! ## Tagged records -/

theorem SameAnswer.bind {ε α β : Type} {a b : Except ε α} (h : SameAnswer a b) (k : α → Except ε β) :
    SameAnswer (a >>= k) (b >>= k) := by
  match a, b, h with
  | .ok _, .ok _, rfl => exact SameAnswer.refl _
  | .error _, .error _, _ => trivial

theorem beq_str (a b : String) : (Yaml.str a).beq (.str b) = (a == b) := rfl

theorem untag_asDocument (x : Json) : x.asDocument.untag = x.asDocument := by
  cases x <;> rfl

theorem asDocumentFields_reverse (gs : List (String × Json)) :
    (Json.asDocumentFields gs).reverse = Json.asDocumentFields gs.reverse := by
  simp only [Json.asDocumentFields_eq_map, List.map_reverse]

theorem length_asDocumentFields (gs : List (String × Json)) :
    (Json.asDocumentFields gs).length = gs.length := by
  rw [Json.asDocumentFields_eq_map, List.length_map]

section TaggedSteps

variable {r : ValueRules} {f : Nat} {tag : String} {kinds : List (String × Members)}
  {es aside : List (Yaml × Yaml)} {kind : Option String} {k : String} {x : Json}

theorem checkTagged_cons_aside (hk : k ≠ tag) :
    checkTagged r (f + 1) tag kinds ((.str k, x.asDocument) :: es) aside kind =
      checkTagged r f tag kinds es ((.str k, x.asDocument) :: aside) kind := by
  simp only [checkTagged, beq_str, Yaml.holdsTag, Json.holdsTag_asDocument, beq_false_of_ne hk,
    Bool.false_eq_true, ↓reduceIte]

theorem checkTagged_cons_duplicate (hkind : kind.isSome = true) :
    checkTagged r (f + 1) tag kinds ((.str tag, x.asDocument) :: es) aside kind =
      .error (.duplicateField tag) := by
  simp only [checkTagged, beq_str, Yaml.holdsTag, beq_self_eq_true, hkind, Bool.false_eq_true,
    ↓reduceIte]

theorem checkTagged_cons_kind {name : String} (hname : (kinds.map (·.1)).contains name = true) :
    checkTagged r (f + 1) tag kinds ((.str tag, (Json.str name).asDocument) :: es) aside none =
      checkTagged r f tag kinds es aside (some name) := by
  simp only [checkTagged, beq_str, Yaml.holdsTag, beq_self_eq_true, Option.isSome_none,
    Bool.false_eq_true, ↓reduceIte, Json.asDocument, Yaml.untag, hname]

theorem checkTagged_cons_refused (hx : ∀ name, x = .str name → (kinds.map (·.1)).contains name = false) :
    ∃ m, checkTagged r (f + 1) tag kinds ((.str tag, x.asDocument) :: es) aside none = .error m := by
  simp only [checkTagged, beq_str, Yaml.holdsTag, beq_self_eq_true, Option.isSome_none,
    Bool.false_eq_true, ↓reduceIte, untag_asDocument]
  cases x with
  | str name =>
    simp only [Json.asDocument, hx name rfl, Bool.false_eq_true, ↓reduceIte]
    exact ⟨_, rfl⟩
  | _ => exact ⟨_, rfl⟩

end TaggedSteps

/-- The entries a tagged record sets aside are checked in the same way whatever
the order they were set aside in. -/
theorem checkTagged_aside_perm {r : ValueRules} {tag : String} {kinds : List (String × Members)} :
    ∀ {gs A A' : List (String × Json)} {kind : Option String} {f : Nat}, A.Perm A' →
      ((gs ++ A).map Prod.fst).Nodup →
      2 * nodeCountEntries (Json.asDocumentFields gs) +
          (2 * nodeCountEntries (Json.asDocumentFields A) - (Json.asDocumentFields A).length) +
          kindsCost kinds + 1 ≤ f →
      SameAnswer (checkTagged r f tag kinds (Json.asDocumentFields gs) (Json.asDocumentFields A) kind)
        (checkTagged r f tag kinds (Json.asDocumentFields gs) (Json.asDocumentFields A') kind)
  | [], A, A', kind, f + 1, hA, hn, hf => by
    simp only [Json.asDocumentFields, checkTagged]
    cases kind with
    | none => trivial
    | some k =>
      dsimp only
      cases hlookup : kinds.lookup k with
      | none => trivial
      | some members =>
        dsimp only
        have := membersCost_le_of_lookup hlookup
        have := length_le_nodeCountEntries (Json.asDocumentFields A)
        simp only [List.nil_append] at hn
        refine SameAnswer.bind ?_ _
        rw [asDocumentFields_reverse, asDocumentFields_reverse]
        have hrev : A.reverse.Perm A'.reverse :=
          (List.reverse_perm A).trans (hA.trans (List.reverse_perm A').symm)
        refine checkRecord_perm hrev (((List.reverse_perm A).map Prod.fst).nodup_iff.mpr hn) ?_
        rw [← asDocumentFields_reverse, nodeCountEntries_reverse, List.length_reverse,
          ← length_asDocumentFields]
        simp only [Json.asDocumentFields, nodeCountEntries] at hf
        omega
  | (k, x) :: gs, A, A', kind, f + 1, hA, hn, hf => by
    have := nodeCount_pos (Yaml.str k)
    have := nodeCount_pos x.asDocument
    simp only [Json.asDocumentFields, nodeCountEntries] at hf
    have hn' : ((gs ++ A).map Prod.fst).Nodup := by
      simp only [List.cons_append, List.map_cons, List.nodup_cons] at hn
      exact hn.2
    simp only [Json.asDocumentFields, checkTagged, beq_str, Yaml.holdsTag, Json.holdsTag_asDocument,
      untag_asDocument, Bool.false_eq_true, ↓reduceIte]
    split
    · split
      · trivial
      · split
        · split
          · exact checkTagged_aside_perm hA hn' (by omega)
          · trivial
        · trivial
    · have hA₁ : ((k, x) :: A).Perm ((k, x) :: A') := hA.cons _
      have hn₁ : ((gs ++ (k, x) :: A).map Prod.fst).Nodup :=
        ((List.perm_middle.map Prod.fst).nodup_iff).mpr hn
      have := length_le_nodeCountEntries (Json.asDocumentFields A)
      have hf₁ := @checkTagged_aside_perm r tag kinds gs _ _ kind f hA₁ hn₁
        (by simp only [Json.asDocumentFields, nodeCountEntries, List.length_cons]; omega)
      simpa only [Json.asDocumentFields] using hf₁

/-- What the tag's entry can do: meet a kind already found, name a kind, or name
none. -/
theorem tag_cases (kinds : List (String × Members)) (kind : Option String) (x : Json) :
    kind.isSome = true ∨ (kind = none ∧ ∃ name, x = .str name ∧ (kinds.map (·.1)).contains name = true) ∨
      (kind = none ∧ ∀ name, x = .str name → (kinds.map (·.1)).contains name = false) := by
  cases kind with
  | some _ => exact .inl rfl
  | none =>
    right
    by_cases h : ∃ name, x = .str name ∧ (kinds.map (·.1)).contains name = true
    · exact .inl ⟨rfl, h⟩
    · refine .inr ⟨rfl, fun name hx => ?_⟩
      simpa [hx] using h

/-- A tagged record checked in two orders of its entries gives the same answer,
when no name is written twice. -/
theorem checkTagged_perm {r : ValueRules} {tag : String} {kinds : List (String × Members)}
    {gs gs' : List (String × Json)} (h : gs.Perm gs') :
    ∀ {A : List (String × Json)} {kind : Option String} {f : Nat}, ((gs ++ A).map Prod.fst).Nodup →
      2 * nodeCountEntries (Json.asDocumentFields gs) +
          (2 * nodeCountEntries (Json.asDocumentFields A) - (Json.asDocumentFields A).length) +
          kindsCost kinds + 1 ≤ f →
      SameAnswer (checkTagged r f tag kinds (Json.asDocumentFields gs) (Json.asDocumentFields A) kind)
        (checkTagged r f tag kinds (Json.asDocumentFields gs') (Json.asDocumentFields A) kind) := by
  induction h with
  | nil => exact fun _ _ => SameAnswer.refl _
  | @cons e l₁ l₂ _ ih =>
    intro A kind f hn hf
    obtain ⟨k, x⟩ := e
    obtain ⟨f, rfl⟩ : ∃ g, f = g + 1 := ⟨f - 1, by omega⟩
    have := nodeCount_pos (Yaml.str k)
    have := nodeCount_pos x.asDocument
    have := length_le_nodeCountEntries (Json.asDocumentFields A)
    simp only [Json.asDocumentFields, nodeCountEntries] at hf ⊢
    simp only [List.cons_append, List.map_cons, List.nodup_cons] at hn
    by_cases hk : k = tag
    · subst hk
      rcases tag_cases kinds kind x with hkind | ⟨rfl, name, rfl, hname⟩ | ⟨rfl, hx⟩
      · rw [checkTagged_cons_duplicate hkind, checkTagged_cons_duplicate hkind]
        trivial
      · rw [checkTagged_cons_kind hname, checkTagged_cons_kind hname]
        exact ih hn.2 (by omega)
      · obtain ⟨m₁, hm₁⟩ := @checkTagged_cons_refused r f k kinds (Json.asDocumentFields l₁)
          (Json.asDocumentFields A) x hx
        obtain ⟨m₂, hm₂⟩ := @checkTagged_cons_refused r f k kinds (Json.asDocumentFields l₂)
          (Json.asDocumentFields A) x hx
        rw [hm₁, hm₂]
        trivial
    · rw [checkTagged_cons_aside hk, checkTagged_cons_aside hk]
      have hn₁ : ((l₁ ++ (k, x) :: A).map Prod.fst).Nodup :=
        ((List.perm_middle.map Prod.fst).nodup_iff).mpr (List.nodup_cons.mpr hn)
      exact ih hn₁ (by simp only [Json.asDocumentFields, nodeCountEntries, List.length_cons]; omega)
  | swap e₁ e₂ l =>
    intro A kind f hn hf
    obtain ⟨k₁, x₁⟩ := e₁
    obtain ⟨k₂, x₂⟩ := e₂
    have := nodeCount_pos (Yaml.str k₁)
    have := nodeCount_pos (Yaml.str k₂)
    have := nodeCount_pos x₁.asDocument
    have := nodeCount_pos x₂.asDocument
    obtain ⟨f, rfl⟩ : ∃ g, f = g + 1 + 1 := ⟨f - 2, by
      simp only [Json.asDocumentFields, nodeCountEntries] at hf; omega⟩
    simp only [Json.asDocumentFields]
    simp only [List.cons_append, List.map_cons, List.nodup_cons, List.mem_cons, not_or] at hn
    have hne : k₂ ≠ k₁ := hn.1.1
    by_cases h₁ : k₁ = tag <;> by_cases h₂ : k₂ = tag
    · exact absurd (h₂.trans h₁.symm) hne
    · subst h₁
      rw [checkTagged_cons_aside h₂]
      rcases tag_cases kinds kind x₁ with hkind | ⟨rfl, name, rfl, hname⟩ | ⟨rfl, hx⟩
      · rw [checkTagged_cons_duplicate hkind, checkTagged_cons_duplicate hkind]
        trivial
      · rw [checkTagged_cons_kind hname, checkTagged_cons_kind hname, checkTagged_cons_aside h₂]
        exact SameAnswer.refl _
      · obtain ⟨m₁, hm₁⟩ := @checkTagged_cons_refused r f k₁ kinds (Json.asDocumentFields l)
          ((.str k₂, x₂.asDocument) :: Json.asDocumentFields A) x₁ hx
        obtain ⟨m₂, hm₂⟩ := @checkTagged_cons_refused r (f + 1) k₁ kinds
          ((.str k₂, x₂.asDocument) :: Json.asDocumentFields l) (Json.asDocumentFields A) x₁ hx
        rw [hm₁, hm₂]
        trivial
    · subst h₂
      rw [checkTagged_cons_aside h₁]
      rcases tag_cases kinds kind x₂ with hkind | ⟨rfl, name, rfl, hname⟩ | ⟨rfl, hx⟩
      · rw [checkTagged_cons_duplicate hkind, checkTagged_cons_duplicate hkind]
        trivial
      · rw [checkTagged_cons_kind hname, checkTagged_cons_kind hname, checkTagged_cons_aside h₁]
        exact SameAnswer.refl _
      · obtain ⟨m₁, hm₁⟩ := @checkTagged_cons_refused r (f + 1) k₂ kinds
          ((.str k₁, x₁.asDocument) :: Json.asDocumentFields l) (Json.asDocumentFields A) x₂ hx
        obtain ⟨m₂, hm₂⟩ := @checkTagged_cons_refused r f k₂ kinds (Json.asDocumentFields l)
          ((.str k₁, x₁.asDocument) :: Json.asDocumentFields A) x₂ hx
        rw [hm₁, hm₂]
        trivial
    · rw [checkTagged_cons_aside h₂, checkTagged_cons_aside h₁, checkTagged_cons_aside h₁,
        checkTagged_cons_aside h₂]
      have hn₁ : ((l ++ (k₁, x₁) :: (k₂, x₂) :: A).map Prod.fst).Nodup := by
        refine (((List.perm_middle.trans (List.perm_middle.cons _)).map Prod.fst).nodup_iff).mpr ?_
        simp only [List.map_cons, List.nodup_cons, List.mem_cons, not_or]
        exact ⟨⟨fun h => hne h.symm, hn.2.1⟩, hn.1.2, hn.2.2⟩
      have := length_le_nodeCountEntries (Json.asDocumentFields A)
      simp only [Json.asDocumentFields, nodeCountEntries] at hf
      exact checkTagged_aside_perm (List.Perm.swap _ _ _) hn₁
        (by simp only [Json.asDocumentFields, nodeCountEntries, List.length_cons]; omega)
  | trans h₁ _ ih₁ ih₂ =>
    intro A kind f hn hf
    have hn₂ := (((h₁.append_right A).map Prod.fst).nodup_iff).mp hn
    exact (ih₁ hn hf).trans (ih₂ hn₂ (by rwa [← nodeCountEntries_perm h₁]))

end Schema

end DenyPolicy
