import DenyPolicy.Proofs.JsonReading
import DenyPolicy.Manifest.Read
/-!
# Manifests survive a write and a reload

A policy set written as a manifest, indented or compact, reads back as the same
set (`PolicySet.fromJsonStr_pretty`, `PolicySet.fromJsonStr_compact`).  The
reading half is the typed reader of `Proofs.JsonReading` applied to the
manifest schema; the decoding half turns the document back into the set.

Reading a manifest re-sorts its sets and its map of counts, so the sets that
come back are those kept in order: `PolicySet.WellFormed` asks of a set what
its types keep of it, each set of denied permissions or principals and the map
of counts by category in increasing order, and every count within 64 bits.
Exceptions are listed as they are, in any order.

Since the compact text of a set's content reads back to the content, two
well-formed sets with the same digest input have the same content, and a
reloaded manifest has the digest of the one written.
-/

namespace DenyPolicy

/-! ## Well-formed sets -/

/-- A rule whose denied permissions and principals are sets listed in increasing
order. -/
structure DenyRule.WellFormed (r : DenyRule) : Prop where
  permissions_sorted : r.deniedPermissions.Pairwise (· < ·)
  principals_sorted : r.deniedPrincipals.Pairwise (· < ·)

/-- A summary whose counts fit in 64 bits and whose counts by category form a map
listed in increasing order of slug. -/
structure Summary.WellFormed (s : Summary) : Prop where
  ruleCount_lt : s.ruleCount < Nat.pow 2 64
  suppressed_lt : s.suppressedRuleCount < Nat.pow 2 64
  byCategory_sorted : s.rulesByCategory.Pairwise (fun a b => a.1 < b.1)
  byCategory_lt : ∀ kn ∈ s.rulesByCategory, kn.2 < Nat.pow 2 64

/-- A policy set as its types keep it: well-formed rules and summary. -/
structure PolicySet.WellFormed (p : PolicySet) : Prop where
  rules : ∀ r ∈ p.rules, r.WellFormed
  summary : p.summary.WellFormed

/-! ## Sorted sets and maps -/

section Sorted

variable {α : Type} (key : α → String)

theorem foldl_insert_of_sorted {ins : α → List α → List α}
    (hins : ∀ x acc, (∀ y ∈ acc, key y < key x) → ins x acc = acc ++ [x]) :
    ∀ {xs acc : List α}, (acc ++ xs).Pairwise (fun a b => key a < key b) →
      xs.foldl (fun acc x => ins x acc) acc = acc ++ xs
  | [], acc, _ => by simp
  | x :: xs, acc, h => by
    have hlt : ∀ y ∈ acc, key y < key x :=
      fun y hy => (List.pairwise_append.mp h).2.2 y hy x List.mem_cons_self
    rw [List.foldl_cons, hins x acc hlt, foldl_insert_of_sorted hins (by simpa using h)]
    simp

end Sorted

theorem StringSet.insert_of_lt {s : String} :
    ∀ {acc : List String}, (∀ t ∈ acc, t < s) → StringSet.insert s acc = acc ++ [s]
  | [], _ => rfl
  | t :: acc, h => by
    have hts := h t List.mem_cons_self
    simp [StringSet.insert, String.lt_asymm hts, (String.ne_of_lt hts).symm,
      StringSet.insert_of_lt fun u hu => h u (List.mem_cons_of_mem t hu)]

theorem StringSet.ofList_of_sorted {xs : List String} (h : xs.Pairwise (· < ·)) :
    StringSet.ofList xs = xs :=
  foldl_insert_of_sorted id (fun _ _ => StringSet.insert_of_lt) (by simpa using h)

theorem insertCount_of_lt {k : String} {n : Nat} :
    ∀ {acc : List (String × Nat)}, (∀ kn ∈ acc, kn.1 < k) → decodeCounts.insertCount k n acc = acc ++ [(k, n)]
  | [], _ => rfl
  | kn :: acc, h => by
    have hlt := h kn List.mem_cons_self
    simp [decodeCounts.insertCount, String.lt_asymm hlt, (String.ne_of_lt hlt).symm,
      insertCount_of_lt fun u hu => h u (List.mem_cons_of_mem kn hu)]

theorem Json.insertSorted_of_lt {k : String} {v : Json} :
    ∀ {acc : List (String × Json)}, (∀ kv ∈ acc, kv.1 < k) → Json.insertSorted k v acc = acc ++ [(k, v)]
  | [], _ => rfl
  | kv :: acc, h => by
    have hlt := h kv List.mem_cons_self
    have hne : (k == kv.1) = false := by simpa using (String.ne_of_lt hlt).symm
    simp [Json.insertSorted, hne, String.lt_asymm hlt,
      Json.insertSorted_of_lt fun u hu => h u (List.mem_cons_of_mem kv hu)]

/-- An object whose keys are in increasing order and whose values are in their
keyed view is in its keyed view. -/
theorem Json.normalize_obj_of_sorted {fs : List (String × Json)}
    (hsorted : fs.Pairwise (fun a b => a.1 < b.1)) (hvalues : ∀ kv ∈ fs, kv.2.normalize = kv.2) :
    (Json.obj fs).normalize = .obj fs := by
  have hfields : Json.normalizeFields fs = fs := by
    induction fs with
    | nil => rfl
    | cons kv fs ih =>
      obtain ⟨k, v⟩ := kv
      rw [Json.normalizeFields, hvalues (k, v) List.mem_cons_self,
        ih (List.pairwise_cons.mp hsorted).2 fun kv hkv => hvalues kv (List.mem_cons_of_mem _ hkv)]
  rw [Json.normalize, hfields,
    foldl_insert_of_sorted Prod.fst (fun _ _ h => Json.insertSorted_of_lt h) (by simpa using hsorted)]
  rfl

/-! ## Decoding the document of a set -/

theorem Decode.items_map {α : Type} {d : Decoder α} {g : α → Json} :
    ∀ {xs : List α}, (∀ x ∈ xs, d (g x) = .ok x) → Decode.items d (xs.map g) = .ok xs
  | [], _ => rfl
  | x :: xs, h => by
    simp [Decode.items, h x List.mem_cons_self, Decode.items_map fun y hy => h y (List.mem_cons_of_mem x hy)]

@[simp] theorem Tier.ofName?_name (t : Tier) : Tier.ofName? t.name = some t := by
  cases t <;> rfl

@[simp] theorem Level.ofName?_name (l : Level) : Level.ofName? l.name = some l := by
  cases l <;> rfl

@[simp] theorem Framework.ofName?_name (f : Framework) : Framework.ofName? f.name = some f := by
  cases f <;> rfl

@[simp] theorem RuleCategory.ofName?_name (c : RuleCategory) : RuleCategory.ofName? c.name = some c := by
  cases c with
  | framework f => cases f <;> rfl
  | shared => rfl

theorem FrameworkSet.ofList_toList (s : FrameworkSet) : FrameworkSet.ofList s.toList = s := by
  obtain ⟨iso, soc, pci, hipaa, gdpr⟩ := s
  cases iso <;> cases soc <;> cases pci <;> cases hipaa <;> cases gdpr <;> rfl

theorem Scope.decode_toJson (s : Scope) : Scope.decode s.toJson = .ok s := by
  simp [Scope.decode, Scope.toJson, Decode.fields, Decode.Fields.required, Json.field?, Decode.enum,
    Decode.string]

theorem FrameworkSet.decode_toJson (s : FrameworkSet) : FrameworkSet.decode s.toJson = .ok s := by
  have hitems : Decode.items (Decode.enum Framework.ofName?) (s.toList.map fun f => .str f.name) =
      .ok s.toList := Decode.items_map fun f _ => by simp [Decode.enum]
  simp [FrameworkSet.decode, FrameworkSet.toJson, Decode.list, hitems, Except.map, FrameworkSet.ofList_toList]

theorem decodeStringSet_strings {xs : List String} (h : xs.Pairwise (· < ·)) :
    decodeStringSet (strings xs) = .ok xs := by
  have hitems : Decode.items Decode.string (xs.map .str) = .ok xs := Decode.items_map fun _ _ => rfl
  simp [decodeStringSet, strings, Decode.list, hitems, Except.map, StringSet.ofList_of_sorted h]

theorem DenyRule.decode_toJson {r : DenyRule} (hr : r.WellFormed) : DenyRule.decode r.toJson = .ok r := by
  have hexceptions : Decode.list Decode.string (strings r.exceptionPrincipals) = .ok r.exceptionPrincipals :=
    Decode.items_map fun _ _ => rfl
  have hpermissions := decodeStringSet_strings hr.permissions_sorted
  have hprincipals := decodeStringSet_strings hr.principals_sorted
  obtain ⟨name, category, controlId, description, permissions, principals, exceptions, condition⟩ := r
  cases condition <;>
    simp_all [DenyRule.decode, DenyRule.toJson, Decode.fields, Decode.Fields.required, Decode.Fields.optional,
      Decode.Fields.withDefault, Decode.option, Json.field?, Decode.enum, Decode.string, Except.map]

theorem OverrideRecord.decode_toJson (o : OverrideRecord) : OverrideRecord.decode o.toJson = .ok o := by
  obtain ⟨active, reason⟩ := o
  cases reason <;>
    simp [OverrideRecord.decode, OverrideRecord.toJson, Decode.fields, Decode.Fields.required,
      Decode.Fields.optional, Decode.Fields.withDefault, Decode.option, Json.field?, Decode.bool, Decode.string,
      Except.map]

/-- A map of counts in increasing order of key, each within 64 bits, is decoded
as itself. -/
theorem decodeCounts_counts {counts : List (String × Nat)} (hsorted : counts.Pairwise (fun a b => a.1 < b.1))
    (hlt : ∀ kn ∈ counts, kn.2 < Nat.pow 2 64) :
    decodeCounts (.obj (counts.map fun (k, n) => (k, .num (.nat n)))) = .ok counts := by
  suffices h : ∀ {xs : List (String × Nat)} (acc : List (String × Nat)), (∀ kn ∈ xs, kn.2 < Nat.pow 2 64) →
      (xs.map fun (k, n) => (k, Json.num (.nat n))).foldlM
          (fun (acc : List (String × Nat)) (kv : String × Json) => do
            let n ← Decode.u64 kv.2
            pure (decodeCounts.insertCount kv.1 n acc)) acc =
        .ok (xs.foldl (fun acc kn => decodeCounts.insertCount kn.1 kn.2 acc) acc) by
    rw [decodeCounts, h [] hlt,
      foldl_insert_of_sorted Prod.fst (fun _ _ h => insertCount_of_lt h) (by simpa using hsorted)]
    rfl
  intro xs
  induction xs with
  | nil => intro acc _; rfl
  | cons kn xs ih =>
    intro acc hxs
    obtain ⟨k, n⟩ := kn
    have hstep : Decode.u64 (Json.num (.nat n)) = .ok n := by
      have hn : n < Nat.pow 2 64 := hxs (k, n) List.mem_cons_self
      simp [Decode.u64, Decode.natBelow, hn]
    rw [List.map_cons, List.foldlM_cons, List.foldl_cons]
    simp only [hstep, ok_bind, pure_eq_ok]
    exact ih _ fun kn' hkn' => hxs kn' (List.mem_cons_of_mem _ hkn')

theorem Summary.decode_toJson {s : Summary} (hs : s.WellFormed) : Summary.decode s.toJson = .ok s := by
  have hcounts := decodeCounts_counts hs.byCategory_sorted hs.byCategory_lt
  have hcount : s.ruleCount < Nat.pow 2 64 := hs.ruleCount_lt
  have hsuppressed : s.suppressedRuleCount < Nat.pow 2 64 := hs.suppressed_lt
  obtain ⟨count, byCategory, suppressed⟩ := s
  simp_all [Summary.decode, Summary.toJson, Decode.fields, Decode.Fields.required, Json.field?, Decode.u64,
    Decode.natBelow]

/-- The document of a well-formed set decodes as the set. -/
theorem PolicySet.decode_toJson {p : PolicySet} (hp : p.WellFormed) : PolicySet.decode p.toJson = .ok p := by
  have hrules : Decode.items DenyRule.decode (p.rules.map DenyRule.toJson) = .ok p.rules :=
    Decode.items_map fun r hr => DenyRule.decode_toJson (hp.rules r hr)
  have hsummary := Summary.decode_toJson hp.summary
  obtain ⟨scope, level, enabled, requested, record, rules, summary, digest⟩ := p
  simp_all [PolicySet.decode, PolicySet.toJson, PolicySet.contentFields, Decode.fields, Decode.Fields.required,
    Json.field?, Decode.enum, Decode.string, Decode.list, Scope.decode_toJson, FrameworkSet.decode_toJson,
    OverrideRecord.decode_toJson]

/-! ## Reading the document of a set -/

section Reading

open JsonText

variable {depth : Nat}

theorem readsBack_map {α : Type} {s : Schema} (hdepth : depth < maxDepth) {f : α → Json}
    (hf : ∀ a, ReadsBack s (depth + 1) (f a)) (xs : List α) : ReadsBack (.list s) depth (.arr (xs.map f)) :=
  readsBack_list hdepth fun x hx => by
    obtain ⟨a, -, rfl⟩ := List.mem_map.mp hx
    exact hf a

theorem readsBack_strings (hdepth : depth < maxDepth) (xs : List String) :
    ReadsBack (.list .text) depth (strings xs) :=
  readsBack_map hdepth (fun t => readsBack_text _ t) xs

theorem Scope.readsBack_toJson (hdepth : depth < maxDepth) (s : Scope) : ReadsBack Scope.schema depth s.toJson :=
  readsBack_record hdepth "Scope" (by decide)
    (.present (readsBack_choice _ _ _ (by cases s.tier <;> decide))
      (.present (readsBack_text _ _) (.present (readsBack_text _ _) .nil)))

theorem FrameworkSet.readsBack_toJson (hdepth : depth < maxDepth) (s : FrameworkSet) :
    ReadsBack (.list Framework.schema) depth s.toJson :=
  readsBack_map hdepth (fun f => readsBack_choice _ _ _ (by cases f <;> decide)) _

/-- A rule's document is read back, its lists one level further in. -/
theorem DenyRule.readsBack_toJson (hdepth : depth + 1 < maxDepth) (r : DenyRule) :
    ReadsBack DenyRule.schema depth r.toJson := by
  obtain ⟨name, category, controlId, description, permissions, principals, exceptions, condition⟩ := r
  have hcategory : category.name ∈ ["iso27001", "soc2", "pci_dss", "hipaa", "gdpr", "shared"] := by
    rcases category with f | _
    · cases f <;> decide
    · decide
  cases condition <;>
    refine readsBack_record (by omega) "DenyRule" (by decide)
      (.present (readsBack_text _ name) (.present (readsBack_choice _ _ _ hcategory)
        (.present (readsBack_text _ controlId) (.present (readsBack_text _ description)
          (.present (readsBack_strings hdepth permissions) (.present (readsBack_strings hdepth principals)
            (.present (readsBack_strings hdepth exceptions) ?_)))))))
  · exact .defaulted .nil
  · exact .present (readsBack_optional_text _ _) .nil

/-- A map of counts in increasing order of key, each within 64 bits, is read
back as a dictionary of counts. -/
theorem readsBack_counts (hdepth : depth < maxDepth) {counts : List (String × Nat)}
    (hsorted : counts.Pairwise (fun a b => a.1 < b.1)) (hlt : ∀ kn ∈ counts, kn.2 < Nat.pow 2 64) :
    ReadsBack (.dictionary (.unsigned 64 "usize")) depth
      (.obj (counts.map fun (k, n) => (k, .num (.nat n)))) := by
  refine readsBack_dictionary hdepth ?_ (Json.normalize_obj_of_sorted (by simpa [List.pairwise_map] using hsorted) ?_)
  · intro kv hkv
    obtain ⟨⟨k, n⟩, hkn, rfl⟩ := List.mem_map.mp hkv
    exact readsBack_unsigned (Nat.le_refl 64) _ _ (hlt (k, n) hkn)
  · intro kv hkv
    obtain ⟨⟨k, n⟩, -, rfl⟩ := List.mem_map.mp hkv
    rfl

/-- The document of a well-formed set is read back against the manifest schema. -/
theorem PolicySet.readsBack_toJson {p : PolicySet} (hp : p.WellFormed) : ReadsBack PolicySet.schema 0 p.toJson := by
  obtain ⟨scope, level, enabled, requested, record, rules, summary, digest⟩ := p
  obtain ⟨active, reason⟩ := record
  obtain ⟨count, byCategory, suppressed⟩ := summary
  have hsummary := hp.summary
  have hlevel : level.name ∈ ["baseline", "medium", "high", "maximum"] := by cases level <;> decide
  refine readsBack_record (by decide) "PolicySet" (by decide)
    (.present (Scope.readsBack_toJson (by decide) scope)
      (.present (readsBack_choice _ _ _ hlevel)
        (.present (FrameworkSet.readsBack_toJson (by decide) enabled)
          (.present (FrameworkSet.readsBack_toJson (by decide) requested)
            (.present ?override
              (.present (readsBack_map (by decide) (DenyRule.readsBack_toJson (by decide)) rules)
                (.present ?summary (.present (readsBack_text _ digest) .nil))))))))
  case override =>
    cases reason <;>
      refine readsBack_record (by decide) _ (by decide) (.present (readsBack_flag _ active) ?_)
    · exact .defaulted .nil
    · exact .present (readsBack_optional_text _ _) .nil
  case summary =>
    exact readsBack_record (by decide) _ (by decide)
      (.present (readsBack_unsigned (Nat.le_refl 64) _ _ hsummary.ruleCount_lt)
        (.present (readsBack_counts (by decide) hsummary.byCategory_sorted hsummary.byCategory_lt)
          (.present (readsBack_unsigned (Nat.le_refl 64) _ _ hsummary.suppressed_lt) .nil)))

end Reading

/-! ## Reloading a manifest -/

theorem PolicySet.fromJsonStr_of_layout {p : PolicySet} (hp : p.WellFormed) (l : Json.Layout) {text : String}
    (htext : text.toList = Json.layout l 0 p.toJson) : PolicySet.fromJsonStr text = .ok p := by
  simp only [PolicySet.fromJsonStr, Schema.readTextOrMessage,
    JsonText.readText_layout (PolicySet.readsBack_toJson hp) l htext, PolicySet.decode_toJson hp]

theorem PolicySet.fromJsonStr_pretty {p : PolicySet} (hp : p.WellFormed) :
    PolicySet.fromJsonStr p.toPretty = .ok p :=
  fromJsonStr_of_layout hp .indented (Json.layout_indented 0 p.toJson).symm

theorem PolicySet.fromJsonStr_compact {p : PolicySet} (hp : p.WellFormed) :
    PolicySet.fromJsonStr p.toJson.compact = .ok p :=
  fromJsonStr_of_layout hp .compact (Json.layout_compact 0 p.toJson).symm

/-- The compact text of a well-formed set's content, its digest input, fixes
everything in the set but the digest: with the digest of either set written
after it, it is a manifest that reads back. -/
theorem PolicySet.eq_of_compact_content {p q : PolicySet} (hp : p.WellFormed) (hq : q.WellFormed)
    (h : (Json.obj q.contentFields).compact = (Json.obj p.contentFields).compact) :
    { q with digest := p.digest } = p := by
  have hq' : ({ q with digest := p.digest } : PolicySet).WellFormed := ⟨hq.rules, hq.summary⟩
  have htext : ({ q with digest := p.digest } : PolicySet).toJson.compact = p.toJson.compact :=
    Json.compact_obj_append (by simp [contentFields]) (by simp [contentFields]) h _
  have hread := PolicySet.fromJsonStr_compact hq'
  rw [htext, PolicySet.fromJsonStr_compact hp] at hread
  exact (Except.ok.inj hread).symm

/-- A well-formed set, written indented or compact, reads back as itself; its
digest input determines all of it but the digest; and so the set reloaded from
its manifest has its digest and passes or fails the digest check as it does. -/
theorem manifest_reload_round_trip {p : PolicySet} (hp : p.WellFormed) :
    PolicySet.fromJsonStr p.toPretty = .ok p ∧ PolicySet.fromJsonStr p.toJson.compact = .ok p ∧
    (∀ q : PolicySet, q.WellFormed →
      (Json.obj q.contentFields).compact = (Json.obj p.contentFields).compact → { q with digest := p.digest } = p) ∧
    (∀ q, PolicySet.fromJsonStr p.toPretty = .ok q →
      q.computeDigest = p.computeDigest ∧ q.verifyDigest = p.verifyDigest) := by
  refine ⟨PolicySet.fromJsonStr_pretty hp, PolicySet.fromJsonStr_compact hp,
    fun q hq h => PolicySet.eq_of_compact_content hp hq h, ?_⟩
  intro q hreload
  rw [PolicySet.fromJsonStr_pretty hp] at hreload
  cases hreload
  exact ⟨rfl, rfl⟩

/-- A one-rule manifest whose description needs escaping and whose exceptions are
not in order. -/
def ledgerManifest : PolicySet where
  scope := ⟨.project, "ledger-prod", "cloudresourcemanager.googleapis.com/projects/ledger-prod"⟩
  level := .high
  enabledFrameworks := FrameworkSet.ofList [.pciDss, .soc2]
  requestedFrameworks := FrameworkSet.ofList [.pciDss]
  emergencyOverride := ⟨true, some "incident \"INC-7\"\n\tpaged"⟩
  rules := [⟨"pci-deny-export", .framework .pciDss, "7.2", "No export of cardholder data — «PAN»",
    ["bigquery.tables.export", "storage.objects.get"], ["principalSet://goog/public:all"],
    ["user:oncall@ledger.example", "group:audit@ledger.example"], none⟩]
  summary := ⟨1, [("pci_dss", 1)], 0⟩
  digest := "0f"

theorem ledger_manifest_reloads :
    ledgerManifest.WellFormed ∧ PolicySet.fromJsonStr ledgerManifest.toPretty = .ok ledgerManifest ∧
      PolicySet.fromJsonStr ledgerManifest.toJson.compact = .ok ledgerManifest ∧
      (∀ q : PolicySet, q.WellFormed → (Json.obj q.contentFields).compact =
        (Json.obj ledgerManifest.contentFields).compact → { q with digest := ledgerManifest.digest } = ledgerManifest) ∧
      (∀ q, PolicySet.fromJsonStr ledgerManifest.toPretty = .ok q →
        q.computeDigest = ledgerManifest.computeDigest ∧ q.verifyDigest = ledgerManifest.verifyDigest) :=
  have hp : ledgerManifest.WellFormed :=
    ⟨fun r hr => by
      simp only [ledgerManifest, List.mem_singleton] at hr
      subst hr
      exact ⟨by decide, by decide⟩, ⟨by decide, by decide, by decide, by decide⟩⟩
  ⟨hp, manifest_reload_round_trip hp⟩

end DenyPolicy
