import DenyPolicy.Proofs.JsonValues
import DenyPolicy.Proofs.Merging
/-!
# The keyed view of JSON values

The reader of any value gives back the keyed view of what a text spells
(`Json.normalize`): every object sorted by member name, a later member of one
name replacing an earlier one.  Two facts about that view carry the comparison
of readers that follows:

* taking the keyed view twice changes nothing more (`Json.normalize_normalize`);
* on a value whose objects name no member twice (`Json.DistinctKeys`) the view
  only reorders: an object's members come out as a permutation of the members
  as written, each value in its own keyed view (`Json.sortFields_perm`), so the
  view has as many nodes as the value (`Json.nodeCount_normalize`).

A JSON value is checked as a document whose keys are strings; that document
holds no tags, and reading it back as JSON gives the value.
-/

namespace DenyPolicy

namespace Json

/-- A value whose objects, at every depth, name no member twice. -/
inductive DistinctKeys : Json → Prop
  | null : DistinctKeys .null
  | bool (b : Bool) : DistinctKeys (.bool b)
  | num (n : Numeral) : DistinctKeys (.num n)
  | str (s : String) : DistinctKeys (.str s)
  | arr {xs : List Json} : (∀ x ∈ xs, DistinctKeys x) → DistinctKeys (.arr xs)
  | obj {fs : List (String × Json)} : (fs.map Prod.fst).Nodup → (∀ kv ∈ fs, DistinctKeys kv.2) →
      DistinctKeys (.obj fs)

/-! ## Sorting members by name -/

def sortFields (fs : List (String × Json)) : List (String × Json) :=
  fs.foldl (fun acc kv => insertSorted kv.1 kv.2 acc) []

theorem normalize_obj (fs : List (String × Json)) :
    (Json.obj fs).normalize = .obj (sortFields (normalizeFields fs)) := by
  rw [normalize, sortFields]

theorem mem_insertSorted {k : String} {v : Json} {kv : String × Json} :
    ∀ {acc : List (String × Json)}, kv ∈ insertSorted k v acc → kv = (k, v) ∨ kv ∈ acc
  | [], h => by simpa [insertSorted] using h
  | (k', w) :: rest, h => by
    unfold insertSorted at h
    split at h
    · simp only [List.mem_cons] at h
      rcases h with h | h
      · exact .inl h
      · exact .inr (List.mem_cons_of_mem _ h)
    · split at h
      · simpa using h
      · simp only [List.mem_cons] at h
        rcases h with h | h
        · exact .inr (h ▸ List.mem_cons_self)
        · rcases mem_insertSorted h with h | h
          · exact .inl h
          · exact .inr (List.mem_cons_of_mem _ h)

theorem insertSorted_ascending {k : String} {v : Json} :
    ∀ {acc : List (String × Json)}, acc.Pairwise (fun a b => a.1 < b.1) →
      (insertSorted k v acc).Pairwise (fun a b => a.1 < b.1)
  | [], _ => by simp [insertSorted]
  | (k', w) :: rest, h => by
    rw [List.pairwise_cons] at h
    unfold insertSorted
    split
    · next heq =>
      have : k = k' := by simpa using heq
      subst this
      exact List.pairwise_cons.mpr ⟨h.1, h.2⟩
    · split
      · next hlt =>
        refine List.pairwise_cons.mpr ⟨?_, List.pairwise_cons.mpr h⟩
        intro b hb
        rcases List.mem_cons.mp hb with rfl | hb
        · exact hlt
        · exact String.lt_trans hlt (h.1 b hb)
      · next hne hlt =>
        have hne : k ≠ k' := by simpa using hne
        have hgt : k' < k := string_lt_of_not_lt_of_ne hlt hne
        refine List.pairwise_cons.mpr ⟨?_, insertSorted_ascending h.2⟩
        intro b hb
        rcases mem_insertSorted hb with rfl | hb
        · exact hgt
        · exact h.1 b hb


theorem foldl_insertSorted_ascending :
    ∀ {fs acc : List (String × Json)}, acc.Pairwise (fun a b => a.1 < b.1) →
      (fs.foldl (fun acc kv => insertSorted kv.1 kv.2 acc) acc).Pairwise (fun a b => a.1 < b.1)
  | [], _, h => h
  | _ :: _, _, h => by
    rw [List.foldl_cons]
    exact foldl_insertSorted_ascending (insertSorted_ascending h)

theorem sortFields_ascending (fs : List (String × Json)) :
    (sortFields fs).Pairwise (fun a b => a.1 < b.1) :=
  foldl_insertSorted_ascending List.Pairwise.nil

theorem mem_foldl_insertSorted {kv : String × Json} :
    ∀ {fs acc : List (String × Json)}, kv ∈ fs.foldl (fun acc kv => insertSorted kv.1 kv.2 acc) acc →
      kv ∈ acc ∨ kv ∈ fs
  | [], _, h => .inl h
  | kv' :: fs, acc, h => by
    rw [List.foldl_cons] at h
    rcases mem_foldl_insertSorted h with h | h
    · rcases mem_insertSorted h with rfl | h
      · exact .inr List.mem_cons_self
      · exact .inl h
    · exact .inr (List.mem_cons_of_mem _ h)

theorem mem_of_mem_sortFields {kv : String × Json} {fs : List (String × Json)} (h : kv ∈ sortFields fs) :
    kv ∈ fs := by
  rcases mem_foldl_insertSorted h with h | h
  · simp at h
  · exact h

theorem sortFields_of_ascending {fs : List (String × Json)} (h : fs.Pairwise (fun a b => a.1 < b.1)) :
    sortFields fs = fs :=
  foldl_insert_of_sorted Prod.fst (fun _ _ h => Json.insertSorted_of_lt h) (by simpa using h)

theorem normalizeFields_of_forall {fs : List (String × Json)} (h : ∀ kv ∈ fs, kv.2.normalize = kv.2) :
    normalizeFields fs = fs := by
  induction fs with
  | nil => rfl
  | cons kv fs ih =>
    obtain ⟨k, v⟩ := kv
    rw [normalizeFields, h (k, v) List.mem_cons_self, ih fun kv hkv => h kv (List.mem_cons_of_mem _ hkv)]

theorem forall_of_normalizeFields {fs : List (String × Json)} (h : normalizeFields fs = fs) :
    ∀ kv ∈ fs, kv.2.normalize = kv.2 := by
  induction fs with
  | nil => simp
  | cons kv fs ih =>
    obtain ⟨k, v⟩ := kv
    rw [normalizeFields, List.cons.injEq, Prod.mk.injEq] at h
    intro kv hkv
    rcases List.mem_cons.mp hkv with rfl | hkv
    · exact h.1.2
    · exact ih h.2 kv hkv

/-! ## The keyed view twice -/

mutual
/-- The keyed view of a keyed view is itself. -/
theorem normalize_normalize : ∀ v : Json, v.normalize.normalize = v.normalize
  | .null | .bool _ | .num _ | .str _ => rfl
  | .arr xs => by rw [normalize, normalize, normalizeItems_normalizeItems xs]
  | .obj fs => by
    have hnormal : ∀ kv ∈ sortFields (normalizeFields fs), kv.2.normalize = kv.2 :=
      fun kv hkv => forall_of_normalizeFields (normalizeFields_normalizeFields fs) kv (mem_of_mem_sortFields hkv)
    rw [normalize_obj, normalize_obj, normalizeFields_of_forall hnormal,
      sortFields_of_ascending (sortFields_ascending _)]

theorem normalizeItems_normalizeItems : ∀ xs : List Json, normalizeItems (normalizeItems xs) = normalizeItems xs
  | [] => rfl
  | x :: xs => by rw [normalizeItems, normalizeItems, normalize_normalize x, normalizeItems_normalizeItems xs]

theorem normalizeFields_normalizeFields :
    ∀ fs : List (String × Json), normalizeFields (normalizeFields fs) = normalizeFields fs
  | [] => rfl
  | (_, x) :: fs => by
    rw [normalizeFields, normalizeFields, normalize_normalize x, normalizeFields_normalizeFields fs]
end

/-! ## Sorting only reorders when no name repeats -/

theorem insertSorted_perm {k : String} {v : Json} :
    ∀ {acc : List (String × Json)}, k ∉ acc.map Prod.fst → (insertSorted k v acc).Perm ((k, v) :: acc)
  | [], _ => by simp [insertSorted]
  | (k', w) :: rest, h => by
    simp only [List.map_cons, List.mem_cons, not_or] at h
    have hne : (k == k') = false := by simpa using h.1
    unfold insertSorted
    rw [if_neg (by simp [hne])]
    split
    · exact List.Perm.refl _
    · exact ((insertSorted_perm h.2).cons _).trans (List.Perm.swap _ _ _)

theorem foldl_insertSorted_perm :
    ∀ {fs acc : List (String × Json)}, ((acc ++ fs).map Prod.fst).Nodup →
      (fs.foldl (fun acc kv => insertSorted kv.1 kv.2 acc) acc).Perm (acc ++ fs)
  | [], acc, _ => by simp
  | kv :: fs, acc, h => by
    have hkv : kv.1 ∉ acc.map Prod.fst := by
      intro hmem
      rw [List.map_append, List.map_cons] at h
      exact (List.nodup_append.mp h).2.2 _ hmem _ List.mem_cons_self rfl
    have hins := insertSorted_perm (v := kv.2) hkv
    have hmid : (kv :: acc ++ fs).Perm (acc ++ kv :: fs) := List.perm_middle.symm
    have hnodup : ((insertSorted kv.1 kv.2 acc ++ fs).map Prod.fst).Nodup :=
      (((hins.append_right fs).trans hmid).map Prod.fst).nodup_iff.mpr h
    exact (foldl_insertSorted_perm hnodup).trans ((hins.append_right fs).trans hmid)

theorem sortFields_perm {fs : List (String × Json)} (h : (fs.map Prod.fst).Nodup) :
    (sortFields fs).Perm fs := by
  rw [sortFields]
  simpa using @foldl_insertSorted_perm fs [] (by simpa using h)

theorem map_fst_normalizeFields (fs : List (String × Json)) :
    (normalizeFields fs).map Prod.fst = fs.map Prod.fst := by
  induction fs with
  | nil => rfl
  | cons kv fs ih => rw [normalizeFields, List.map_cons, List.map_cons, ih]


/-! ## Values as documents -/

theorem asDocumentItems_eq_map : ∀ xs : List Json, asDocumentItems xs = xs.map asDocument
  | [] => rfl
  | x :: xs => by rw [asDocumentItems, asDocumentItems_eq_map xs, List.map_cons]

theorem asDocumentFields_eq_map :
    ∀ fs : List (String × Json), asDocumentFields fs = fs.map fun kv => (.str kv.1, asDocument kv.2)
  | [] => rfl
  | (k, x) :: fs => by rw [asDocumentFields, asDocumentFields_eq_map fs, List.map_cons]

mutual
theorem toJson_asDocument : ∀ v : Json, v.asDocument.toJson = v
  | .null | .bool _ | .num _ | .str _ => rfl
  | .arr xs => by rw [asDocument, Yaml.toJson, toJson_asDocumentItems xs]
  | .obj fs => by rw [asDocument, Yaml.toJson, toJson_asDocumentFields fs]

theorem toJson_asDocumentItems : ∀ xs : List Json, Yaml.itemsToJson (asDocumentItems xs) = xs
  | [] => rfl
  | x :: xs => by rw [asDocumentItems, Yaml.itemsToJson, toJson_asDocument x, toJson_asDocumentItems xs]

theorem toJson_asDocumentFields :
    ∀ fs : List (String × Json), Yaml.entriesToJson (asDocumentFields fs) = fs
  | [] => rfl
  | (k, x) :: fs => by
    rw [asDocumentFields, Yaml.entriesToJson, toJson_asDocument x, toJson_asDocumentFields fs]
end

mutual
theorem holdsTag_asDocument : ∀ v : Json, v.asDocument.holdsTag = false
  | .null | .bool _ | .num _ | .str _ => rfl
  | .arr xs => by rw [asDocument, Yaml.holdsTag, holdsTagItems_asDocumentItems xs]
  | .obj fs => by rw [asDocument, Yaml.holdsTag, holdsTagEntries_asDocumentFields fs]

theorem holdsTagItems_asDocumentItems : ∀ xs : List Json, Yaml.holdsTagItems (asDocumentItems xs) = false
  | [] => rfl
  | x :: xs => by
    rw [asDocumentItems, Yaml.holdsTagItems, holdsTag_asDocument x, holdsTagItems_asDocumentItems xs]
    rfl

theorem holdsTagEntries_asDocumentFields :
    ∀ fs : List (String × Json), Yaml.holdsTagEntries (asDocumentFields fs) = false
  | [] => rfl
  | (k, x) :: fs => by
    rw [asDocumentFields, Yaml.holdsTagEntries, holdsTag_asDocument x, holdsTagEntries_asDocumentFields fs]
    rfl
end

theorem nodeCountItems_map_congr {α : Type} {f g : α → Yaml} :
    ∀ {xs : List α}, (∀ x ∈ xs, (f x).nodeCount = (g x).nodeCount) →
      Yaml.nodeCountItems (xs.map f) = Yaml.nodeCountItems (xs.map g)
  | [], _ => rfl
  | x :: xs, h => by
    rw [List.map_cons, List.map_cons, Yaml.nodeCountItems, Yaml.nodeCountItems, h x List.mem_cons_self,
      nodeCountItems_map_congr fun y hy => h y (List.mem_cons_of_mem _ hy)]

theorem nodeCountEntries_map_congr {α : Type} {f g : α → Yaml × Yaml} :
    ∀ {es : List α}, (∀ e ∈ es, (f e).1.nodeCount + (f e).2.nodeCount = (g e).1.nodeCount + (g e).2.nodeCount) →
      Yaml.nodeCountEntries (es.map f) = Yaml.nodeCountEntries (es.map g)
  | [], _ => rfl
  | e :: es, h => by
    have hrest := nodeCountEntries_map_congr fun e' he' => h e' (List.mem_cons_of_mem _ he')
    have he := h e List.mem_cons_self
    rw [List.map_cons, List.map_cons, Yaml.nodeCountEntries, Yaml.nodeCountEntries, hrest]
    omega

theorem nodeCountEntries_eq_of_perm {es es' : List (Yaml × Yaml)} (h : es.Perm es') :
    Yaml.nodeCountEntries es = Yaml.nodeCountEntries es' := by
  induction h with
  | nil => rfl
  | cons e _ ih => rw [Yaml.nodeCountEntries, Yaml.nodeCountEntries, ih]
  | swap e₁ e₂ l =>
    simp only [Yaml.nodeCountEntries]
    omega
  | trans _ _ ih₁ ih₂ => exact ih₁.trans ih₂

theorem normalizeItems_eq_map : ∀ xs : List Json, normalizeItems xs = xs.map normalize
  | [] => rfl
  | x :: xs => by rw [normalizeItems, normalizeItems_eq_map xs, List.map_cons]

theorem normalizeFields_eq_map :
    ∀ fs : List (String × Json), normalizeFields fs = fs.map fun kv => (kv.1, kv.2.normalize)
  | [] => rfl
  | (k, x) :: fs => by rw [normalizeFields, normalizeFields_eq_map fs, List.map_cons]

/-- With no name twice, the keyed view has as many nodes as the value. -/
theorem nodeCount_normalize {v : Json} (h : v.DistinctKeys) :
    v.normalize.asDocument.nodeCount = v.asDocument.nodeCount := by
  induction h with
  | null | bool | num | str => rfl
  | @arr xs _ ih =>
    rw [normalize, asDocument, asDocument, Yaml.nodeCount, Yaml.nodeCount, asDocumentItems_eq_map,
      asDocumentItems_eq_map, normalizeItems_eq_map, List.map_map]
    exact congrArg (1 + ·) (nodeCountItems_map_congr fun x hx => ih x hx)
  | @obj fs hnodup _ ih =>
    have hperm : (sortFields (normalizeFields fs)).Perm (normalizeFields fs) :=
      sortFields_perm (by rwa [map_fst_normalizeFields])
    have hcount : Yaml.nodeCountEntries (asDocumentFields (sortFields (normalizeFields fs))) =
        Yaml.nodeCountEntries (asDocumentFields (normalizeFields fs)) := by
      rw [asDocumentFields_eq_map, asDocumentFields_eq_map]
      exact nodeCountEntries_eq_of_perm (hperm.map _)
    rw [normalize_obj, asDocument, asDocument, Yaml.nodeCount, Yaml.nodeCount, hcount,
      asDocumentFields_eq_map, asDocumentFields_eq_map, normalizeFields_eq_map, List.map_map]
    exact congrArg (1 + ·) (nodeCountEntries_map_congr fun kv hkv => by
      simp only [Function.comp_def]
      rw [ih kv hkv])

end Json

end DenyPolicy
