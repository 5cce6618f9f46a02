import DenyPolicy.Proofs.TypedReading
import DenyPolicy.Load
import Mathlib.Control.Monad.Basic
/-!
# Loading a JSON file and reading it typed

`loadInput` reads a JSON file in two passes: the text is read as any value, the
document's classification is checked against its scope (`classifyJson`), and
only then is the document checked against the input's schema (`decodeJson`).
`CompilationInput.fromJsonText` reads the text against the schema in one pass.

The two agree on every text that the first pass reads: a text that spells a
value (`JsonText.Spells`) with no name twice in an object, and blanks after it.
Where the classification is left as written, loading gives what the typed
reader gives; where it is a string naming a classification for a scope with a
string id, loading gives what the typed reader gives on the document with the
canonical name in its place; any other classification under such a scope is
refused with a validation error for that scope; and a document the typed reader
takes is loaded as it reads it unless that refusal applies
(`loadInput_json_refines_typed_reading`).  The first pass is what the typed
reader lacks: a member the input does not know is only skipped by the typed
reader, so a number out of range there is taken by it and refused by loading
(`typed_reading_skips_unknown_member`).
-/

namespace DenyPolicy

namespace Json

/-! ## Members of a document -/

theorem lookup_cons_of_ne {key k : String} {x : Json} {fs : List (String × Json)} (hk : key ≠ k) :
    ((k, x) :: fs).lookup key = fs.lookup key := by
  rw [List.lookup_cons, beq_false_of_ne hk]

theorem foldl_field (key : String) :
    ∀ (fs : List (String × Json)) (acc : Option Json),
      fs.foldl (fun acc kv => if kv.1 == key then some kv.2 else acc) acc = (fs.reverse.lookup key).or acc
  | [], acc => rfl
  | (k, w) :: fs, acc => by
    rw [List.foldl_cons, foldl_field key fs, List.reverse_cons, List.lookup_append, Option.or_assoc]
    by_cases hk : k = key
    · subst hk
      simp
    · simp [lookup_cons_of_ne (Ne.symm hk), hk]

theorem field?_eq_lookup {fs : List (String × Json)} (hn : (fs.map Prod.fst).Nodup) (key : String) :
    field? fs key = fs.lookup key := by
  have hrev : (fs.reverse.map Prod.fst).Nodup := by
    rw [List.map_reverse]
    exact (List.reverse_perm _).nodup_iff.mpr hn
  rw [field?, foldl_field, Option.or_none, Schema.lookup_eq_of_perm (List.reverse_perm fs) hrev]

theorem lookup_normalizeFields (key : String) (fs : List (String × Json)) :
    (normalizeFields fs).lookup key = (fs.lookup key).map Json.normalize := by
  induction fs with
  | nil => rfl
  | cons kx fs ih =>
    obtain ⟨k, x⟩ := kx
    by_cases hk : key = k
    · subst hk
      simp [normalizeFields]
    · rw [normalizeFields, lookup_cons_of_ne hk, lookup_cons_of_ne hk, ih]

theorem mem_of_lookup {key : String} {x : Json} :
    ∀ {fs : List (String × Json)}, fs.lookup key = some x → (key, x) ∈ fs
  | [], h => by simp at h
  | (k, w) :: fs, h => by
    by_cases hk : key = k
    · subst hk
      rw [List.lookup_cons_self, Option.some.injEq] at h
      simp [h]
    · rw [lookup_cons_of_ne hk] at h
      exact List.mem_cons_of_mem _ (mem_of_lookup h)

/-- With no name twice, a member is what its name looks up. -/
theorem lookup_of_mem {key : String} {x : Json} :
    ∀ {fs : List (String × Json)}, (fs.map Prod.fst).Nodup → (key, x) ∈ fs → fs.lookup key = some x
  | [], _, h => by simp at h
  | (k, w) :: fs, hn, h => by
    simp only [List.map_cons, List.nodup_cons] at hn
    rcases List.mem_cons.mp h with heq | hmem
    · cases heq
      exact List.lookup_cons_self
    · have hk : key ≠ k := fun hk => hn.1 (hk ▸ List.mem_map_of_mem (f := Prod.fst) hmem)
      rw [lookup_cons_of_ne hk]
      exact lookup_of_mem hn.2 hmem

theorem DistinctKeys.of_get? {v x : Json} {key : String} (hk : v.DistinctKeys) (h : v.get? key = some x) :
    x.DistinctKeys := by
  cases hk with
  | obj hn hks =>
    rw [get?, field?_eq_lookup hn] at h
    exact hks _ (mem_of_lookup h)
  | _ => simp [get?] at h

/-- Keying a document keys each member and keeps its name. -/
theorem get?_normalize {v : Json} (hk : v.DistinctKeys) (key : String) :
    v.normalize.get? key = (v.get? key).map Json.normalize := by
  cases hk with
  | @obj fs hn hks =>
    have hn' : ((normalizeFields fs).map Prod.fst).Nodup := by rwa [map_fst_normalizeFields]
    have hperm := sortFields_perm hn'
    have hsorted : ((sortFields (normalizeFields fs)).map Prod.fst).Nodup :=
      (hperm.map Prod.fst).nodup_iff.mpr hn'
    rw [normalize_obj, get?, get?, field?_eq_lookup hsorted, field?_eq_lookup hn,
      Schema.lookup_eq_of_perm hperm hsorted, lookup_normalizeFields]
  | _ => rfl

theorem getStr?_normalize (x : Json) : x.normalize.getStr? = x.getStr? := by
  cases x with
  | obj fs => rw [normalize_obj]; rfl
  | _ => rfl

theorem scopeId?_normalize {v : Json} (hk : v.DistinctKeys) : v.normalize.scopeId? = v.scopeId? := by
  simp only [scopeId?, get?_normalize hk]
  cases hscope : v.get? "scope" with
  | none => rfl
  | some x =>
    simp only [Option.map_some, Option.bind_some, get?_normalize (hk.of_get? hscope)]
    cases x.get? "id" with
    | none => rfl
    | some y => simp only [Option.map_some, Option.bind_some, getStr?_normalize]

/-! ## Replacing a member -/

/-- Inserting by name commutes with a change of values that keeps the names. -/
theorem insertSorted_map {g : String × Json → String × Json} (hg : ∀ kv, (g kv).1 = kv.1) (key : String)
    (v : Json) (acc : List (String × Json)) :
    (insertSorted key v acc).map g = insertSorted key (g (key, v)).2 (acc.map g) := by
  obtain ⟨v', hv'⟩ : ∃ v', g (key, v) = (key, v') := ⟨(g (key, v)).2, Prod.ext (hg (key, v)) rfl⟩
  induction acc with
  | nil =>
    simp only [insertSorted, List.map_cons, List.map_nil, List.cons.injEq, and_true]
    exact Prod.ext (hg (key, v)) rfl
  | cons kw rest ih =>
    obtain ⟨k, w⟩ := kw
    obtain ⟨w', hw'⟩ : ∃ w', g (k, w) = (k, w') := ⟨(g (k, w)).2, Prod.ext (hg (k, w)) rfl⟩
    rw [hv'] at ih
    rw [List.map_cons, hw', hv']
    simp only [insertSorted]
    split
    · simp only [List.map_cons, hv']
    · split
      · simp only [List.map_cons, hv', hw']
      · simp only [List.map_cons, hw', ih]

theorem sortFields_map {g : String × Json → String × Json} (hg : ∀ kv, (g kv).1 = kv.1)
    (fs : List (String × Json)) : sortFields (fs.map g) = (sortFields fs).map g := by
  suffices h : ∀ acc, (fs.map g).foldl (fun acc kv => insertSorted kv.1 kv.2 acc) (acc.map g) =
      (fs.foldl (fun acc kv => insertSorted kv.1 kv.2 acc) acc).map g from h []
  induction fs with
  | nil => intro acc; rfl
  | cons kv fs ih =>
    intro acc
    rw [List.map_cons, List.foldl_cons, List.foldl_cons, ← ih, insertSorted_map hg, hg kv]

theorem setField_obj (fs : List (String × Json)) (key : String) (v : Json) :
    (Json.obj fs).setField key v = .obj (fs.map fun kv => if kv.1 = key then (kv.1, v) else kv) := by
  simp only [setField]

theorem fst_setMember (key : String) (v : Json) (kv : String × Json) :
    (if kv.1 = key then (kv.1, v) else kv).1 = kv.1 := by
  split <;> rfl

/-- Writing a string in place of a member commutes with keying the document. -/
theorem normalize_setField (v : Json) (key t : String) :
    (v.setField key (.str t)).normalize = v.normalize.setField key (.str t) := by
  cases v with
  | obj fs =>
    have hfields : normalizeFields (fs.map fun kv => if kv.1 = key then (kv.1, .str t) else kv) =
        (normalizeFields fs).map fun kv => if kv.1 = key then (kv.1, .str t) else kv := by
      rw [normalizeFields_eq_map, normalizeFields_eq_map, List.map_map, List.map_map]
      refine List.map_congr_left fun kv _ => ?_
      by_cases hk : kv.1 = key <;> simp [hk, Json.normalize]
    rw [setField_obj, normalize_obj, normalize_obj, setField_obj, hfields, sortFields_map (fst_setMember key _)]
  | _ => rfl

/-- Writing a string in place of a member keeps the names distinct. -/
theorem DistinctKeys.setField {v : Json} (hk : v.DistinctKeys) (key t : String) :
    (v.setField key (.str t)).DistinctKeys := by
  cases hk with
  | @obj fs hn hks =>
    rw [setField_obj]
    refine .obj ?_ fun kv hkv => ?_
    · have hkeys : (fs.map fun kv => if kv.1 = key then (kv.1, Json.str t) else kv).map Prod.fst =
          fs.map Prod.fst := by
        rw [List.map_map]
        exact List.map_congr_left fun kv _ => fst_setMember key _ kv
      rwa [hkeys]
    · obtain ⟨kv, hmem, rfl⟩ := List.mem_map.mp hkv
      by_cases hkey : kv.1 = key
      · simp only [hkey, ↓reduceIte]
        exact .str t
      · simp only [hkey, ↓reduceIte]
        exact hks kv hmem
  | null => exact .null
  | bool b => exact .bool b
  | num n => exact .num n
  | str s => exact .str s
  | arr h => exact .arr h

/-- Writing a member's own value in its place changes nothing. -/
theorem setField_of_get? {v x : Json} {key : String} (hk : v.DistinctKeys) (h : v.get? key = some x) :
    v.setField key x = v := by
  cases hk with
  | @obj fs hn hks =>
    rw [get?, field?_eq_lookup hn] at h
    rw [setField_obj, Json.obj.injEq]
    refine (List.map_congr_left fun kv hkv => ?_).trans (List.map_id fs)
    by_cases hkey : kv.1 = key
    · have hsame : fs.lookup kv.1 = some kv.2 := lookup_of_mem hn hkv
      rw [hkey, h, Option.some.injEq] at hsame
      simp only [hkey, ↓reduceIte, id_eq, hsame]
      exact Prod.ext hkey.symm rfl
    · simp only [hkey, ↓reduceIte, id_eq]
  | _ => simp [get?] at h

end Json

namespace Classification

theorem parseFor_name (scope : String) (c : Classification) : parseFor scope c.name = .ok c := by
  have h : ofName? (Text.asciiLower (Text.trim c.name)) = some c := by
    cases c <;> decide +kernel
  simp only [parseFor, h]

theorem parseFor_error {scope raw : String} {e : PolicyError} (h : parseFor scope raw = .error e) :
    ∃ msg, e = .validation scope "data_classification" msg := by
  unfold parseFor at h
  dsimp only at h
  split at h
  · cases h
  · exact ⟨_, (Except.error.inj h).symm⟩

end Classification

/-! ## The passes of loading -/

theorem classifyJson_unchanged {doc : Json}
    (h : doc.get? "data_classification" = none ∨ doc.scopeId? = none) : classifyJson doc = .ok doc := by
  unfold classifyJson
  rcases h with h | h
  · rw [h]
    rfl
  · cases doc.get? "data_classification" with
    | none => rfl
    | some field => simp only [checkClassification, h, ok_bind, pure_eq_ok]

theorem classifyJson_named {doc : Json} {scope raw : String} {c : Classification}
    (hs : doc.scopeId? = some scope) (hf : doc.get? "data_classification" = some (.str raw))
    (hc : Classification.parseFor scope raw = .ok c) :
    classifyJson doc = .ok (doc.setField "data_classification" (.str c.name)) := by
  unfold classifyJson
  simp only [hf, hs, checkClassification, Json.getStr?, hc, Except.map, ok_bind, pure_eq_ok]

/-- Under a scope with a string id, any other classification is refused with a
validation error for the scope and the field. -/
theorem classifyJson_refused {doc field : Json} {scope : String} (hs : doc.scopeId? = some scope)
    (hf : doc.get? "data_classification" = some field)
    (hr : ∀ raw, field = .str raw → ∀ c, Classification.parseFor scope raw ≠ .ok c) :
    ∃ msg, classifyJson doc = .error (.validation scope "data_classification" msg) := by
  unfold classifyJson
  simp only [hf, hs, checkClassification]
  cases hstr : field.getStr? with
  | none => exact ⟨_, rfl⟩
  | some raw =>
    have hfield : field = .str raw := by
      cases field <;> simp_all [Json.getStr?]
    cases hp : Classification.parseFor scope raw with
    | ok c => exact absurd hp (hr raw hfield c)
    | error e =>
      obtain ⟨msg, rfl⟩ := Classification.parseFor_error hp
      exact ⟨msg, by simp only [hp, Except.map, error_bind]⟩

theorem readTextOrMessage_anything {text : String} {v : Json} {rest : List Char}
    (h : JsonText.Spells 0 text.toList v rest) (hblank : JsonText.skipBlanks rest = []) (hk : v.DistinctKeys) :
    Schema.anything.readTextOrMessage text = .ok v.normalize := by
  have hcheck : Schema.checkValue ValueRules.json .anything (JsonText.keyedDocument v) = .ok v.normalize := by
    rw [Schema.checkValue, Schema.check_eq_checkFully (by simp only [Schema.cost]; omega),
      JsonText.checkFully_eq_succ]
    simp only [Schema.check, Json.toJson_asDocument]
  have hread := (JsonText.readText_eq_checkValue h hblank hk (by decide) v.normalize).mpr hcheck
  simp only [Schema.readTextOrMessage, hread]

theorem loadJson_eq {path text : String} {v : Json} {rest : List Char}
    (h : JsonText.Spells 0 text.toList v rest) (hblank : JsonText.skipBlanks rest = []) (hk : v.DistinctKeys) :
    loadJson path text = classifyJson v.normalize >>= decodeJson path := by
  simp only [loadJson, readTextOrMessage_anything h hblank hk]
  rfl

/-- The last pass of loading, on the keyed value a text spells, gives what the
typed reader gives on that text, and refuses with a load error where it refuses. -/
theorem decodeJson_normalize {path text : String} {v : Json} {rest : List Char}
    (h : JsonText.Spells 0 text.toList v rest) (hblank : JsonText.skipBlanks rest = []) (hk : v.DistinctKeys) :
    (∀ i, decodeJson path v.normalize = .ok i ↔ CompilationInput.fromJsonText text = .ok i) ∧
      ∀ e, CompilationInput.fromJsonText text = .error e →
        ∃ msg, decodeJson path v.normalize = .error (.load path msg) := by
  have hread := JsonText.readText_eq_checkValue (s := CompilationInput.schema) h hblank hk (by decide)
  unfold CompilationInput.fromJsonText Schema.readTextOrMessage
  cases hc : Schema.checkValue ValueRules.json CompilationInput.schema (JsonText.keyedDocument v) with
  | ok w =>
    have hdecode : decodeJson path v.normalize = (CompilationInput.decode w).mapError
        fun _ => PolicyError.load path "invalid configuration" := by
      unfold decodeJson
      simp only [hc, Except.mapError, ok_bind]
      cases CompilationInput.decode w <;> rfl
    rw [(hread w).mpr hc, hdecode]
    cases hd : CompilationInput.decode w with
    | ok i => exact ⟨fun i' => by simp [hd, Except.mapError], fun e he => by simp [hd, Except.mapError] at he⟩
    | error _ => exact ⟨fun i' => by simp [hd, Except.mapError], fun e _ => ⟨_, rfl⟩⟩
  | error m =>
    have hdecode : decodeJson path v.normalize = .error (.load path (m.message .json)) := by
      unfold decodeJson
      simp only [hc, Except.mapError, error_bind]
    cases hr : CompilationInput.schema.readText text with
    | ok w => exact absurd ((hread w).mp hr) (by rw [hc]; simp)
    | error f =>
      exact ⟨fun i => by simp [hdecode], fun e _ => ⟨_, hdecode⟩⟩

/-! ## What the check of an input takes -/

/-- A list checked item by item with success has each item taken. -/
theorem ok_of_mapM {α β ε : Type} {g : α → Except ε β} :
    ∀ {l : List α} {out : List β}, l.mapM g = .ok out → ∀ a ∈ l, ∃ b, g a = .ok b
  | [], _, _, a, ha => absurd ha List.not_mem_nil
  | x :: l, out, h, a, ha => by
    simp only [List.mapM_cons] at h
    cases hx : g x with
    | error e => simp [hx] at h
    | ok y =>
      cases hl : l.mapM g with
      | error e => simp [hx, hl] at h
      | ok ys =>
        rcases List.mem_cons.mp ha with rfl | ha
        · exact ⟨y, hx⟩
        · exact ok_of_mapM hl a ha

theorem Schema.checkMember_of_checkRecord {r : ValueRules} {members : Members} {gs : List (String × Json)}
    {f : Nat} {w : Json} (hn : (gs.map Prod.fst).Nodup)
    (hf : 2 * Yaml.nodeCountEntries (Json.asDocumentFields gs) - gs.length + Schema.membersCost members + 2 ≤ f)
    (h : Schema.checkRecord r f members (Json.asDocumentFields gs) = .ok w) :
    ∀ e ∈ Schema.memberEntries members gs, ∃ y, Schema.checkMember r e = .ok y := by
  obtain ⟨f, rfl⟩ : ∃ g, f = g + 1 := ⟨f - 1, by omega⟩
  rw [Schema.checkRecord_succ, Schema.checkMembers_eq_mapM hn (by simp) (by omega)] at h
  cases hm : (Schema.memberEntries members gs).mapM (Schema.checkMember r) with
  | error e => simp [hm] at h
  | ok found => exact ok_of_mapM hm

/-- A classification that the check of the input takes as a string is written by
its canonical name. -/
theorem classification_named {v w : Json} {raw : String} (hk : v.DistinctKeys)
    (hcheck : Schema.checkValue ValueRules.json CompilationInput.schema (JsonText.keyedDocument v) = .ok w)
    (hf : v.get? "data_classification" = some (.str raw)) : ∃ c : Classification, c.name = raw := by
  cases hk with
  | null | bool _ | num _ | str _ | arr _ => simp [Json.get?] at hf
  | @obj fs hn hks =>
  have hn' : ((Json.normalizeFields fs).map Prod.fst).Nodup := by rwa [Json.map_fst_normalizeFields]
  have hperm := Json.sortFields_perm hn'
  have hA := Schema.length_le_nodeCountEntries (Json.asDocumentFields (Json.normalizeFields fs))
  rw [Schema.length_asDocumentFields] at hA
  obtain ⟨members, hschema, hmember⟩ : ∃ members, CompilationInput.schema = .record "CompilationInput" members ∧
      Schema.memberNamed members "data_classification" = some (.defaulted, Classification.schema) :=
    ⟨_, rfl, rfl⟩
  have hcost : CompilationInput.schema.cost ≤ 63 := by decide
  rw [hschema] at hcost hcheck
  simp only [Schema.cost] at hcost
  rw [Schema.checkValue, JsonText.keyedDocument_obj] at hcheck
  simp only [Schema.check] at hcheck
  obtain ⟨F, hF, hsorted⟩ : ∃ F, 2 * Yaml.nodeCountEntries (Json.asDocumentFields (Json.normalizeFields fs)) + 65 ≤ F ∧
      Schema.checkRecord ValueRules.json F members
        (Json.asDocumentFields (Json.sortFields (Json.normalizeFields fs))) = .ok w :=
    ⟨_, by simp only [Yaml.nodeCount, Schema.nodeCountEntries_perm hperm]; omega, hcheck⟩
  have hsame : Schema.SameAnswer
      (Schema.checkRecord ValueRules.json F members (Json.asDocumentFields (Json.normalizeFields fs)))
      (Schema.checkRecord ValueRules.json F members
        (Json.asDocumentFields (Json.sortFields (Json.normalizeFields fs)))) :=
    Schema.checkRecord_perm hperm.symm hn' (by omega)
  rw [hsorted] at hsame
  obtain ⟨w', hwritten⟩ : ∃ w', Schema.checkRecord ValueRules.json F members
      (Json.asDocumentFields (Json.normalizeFields fs)) = .ok w' := by
    revert hsame
    cases Schema.checkRecord ValueRules.json F members (Json.asDocumentFields (Json.normalizeFields fs)) with
    | ok w' => exact fun _ => ⟨w', rfl⟩
    | error m => exact False.elim
  have hmem : ("data_classification", Json.str raw) ∈ Json.normalizeFields fs := by
    rw [Json.get?, Json.field?_eq_lookup hn] at hf
    apply Json.mem_of_lookup
    rw [Json.lookup_normalizeFields, hf]
    rfl
  obtain ⟨y, hy⟩ := Schema.checkMember_of_checkRecord hn' (by omega) hwritten
    ("data_classification", Classification.schema, .str raw)
    (List.mem_filterMap.mpr ⟨_, hmem, by simp only [hmember, Option.map_some]⟩)
  simp only [Schema.checkMember] at hy
  cases hchoice : Schema.checkFully ValueRules.json Classification.schema (Json.str raw).asDocument with
  | error m => simp [hchoice, Except.map] at hy
  | ok z =>
    rw [JsonText.checkFully_eq_succ] at hchoice
    simp only [Classification.schema, Json.asDocument, Schema.check] at hchoice
    cases hc : Schema.choose ["public", "internal", "confidential", "restricted"] [] raw with
    | none => simp [hc] at hchoice
    | some c =>
      simp only [Schema.choose, List.lookup_nil] at hc
      split at hc
      · next hnames =>
        simp only [List.contains_iff_mem, List.mem_cons, List.not_mem_nil, or_false] at hnames
        rcases hnames with rfl | rfl | rfl | rfl
        · exact ⟨.publicData, rfl⟩
        · exact ⟨.internalData, rfl⟩
        · exact ⟨.confidentialData, rfl⟩
        · exact ⟨.restrictedData, rfl⟩
      · cases hc

/-! ## Loading against the typed reader -/

/-- Loading `text` from `path` gives what the typed reader gives on `text'`: the
same input where either takes its document, and a load error where the typed
reader refuses. -/
def LoadsAsTyped (path text text' : String) : Prop :=
  (∀ i, loadInput path text = .ok i ↔ CompilationInput.fromJsonText text' = .ok i) ∧
    ∀ e, CompilationInput.fromJsonText text' = .error e → ∃ msg, loadInput path text = .error (.load path msg)

theorem loadsAsTyped_of_decodeJson {path text text' : String} {v' : Json} {rest' : List Char}
    (hpath : DocumentFormat.ofPath path = .json) (hload : loadJson path text = decodeJson path v'.normalize)
    (h' : JsonText.Spells 0 text'.toList v' rest') (hblank' : JsonText.skipBlanks rest' = [])
    (hk' : v'.DistinctKeys) : LoadsAsTyped path text text' := by
  have hinput : loadInput path text = decodeJson path v'.normalize := by
    simp only [loadInput, hpath, hload]
  rw [LoadsAsTyped, hinput]
  exact decodeJson_normalize h' hblank' hk'

section Loading

variable {path text : String} {v : Json} {rest : List Char}
  (hpath : DocumentFormat.ofPath path = .json) (h : JsonText.Spells 0 text.toList v rest)
  (hblank : JsonText.skipBlanks rest = []) (hk : v.DistinctKeys)
include hpath h hblank hk

theorem loadInput_json_unchanged (hcase : v.get? "data_classification" = none ∨ v.scopeId? = none) :
    LoadsAsTyped path text text := by
  have hclassify : classifyJson v.normalize = .ok v.normalize := by
    apply classifyJson_unchanged
    rw [Json.get?_normalize hk, Json.scopeId?_normalize hk]
    rcases hcase with hnone | hnone
    · exact .inl (by rw [hnone]; rfl)
    · exact .inr hnone
  refine loadsAsTyped_of_decodeJson hpath ?_ h hblank hk
  rw [loadJson_eq h hblank hk, hclassify, ok_bind]

/-- A classification named by a string under a scope with a string id: loading
gives what the typed reader gives on a text with the canonical name in its place. -/
theorem loadInput_json_named {scope raw : String} {c : Classification} {text' : String} {rest' : List Char}
    (hs : v.scopeId? = some scope) (hf : v.get? "data_classification" = some (.str raw))
    (hc : Classification.parseFor scope raw = .ok c)
    (h' : JsonText.Spells 0 text'.toList (v.setField "data_classification" (.str c.name)) rest')
    (hblank' : JsonText.skipBlanks rest' = []) : LoadsAsTyped path text text' := by
  have hclassify : classifyJson v.normalize =
      .ok (v.setField "data_classification" (.str c.name)).normalize := by
    have hs' : v.normalize.scopeId? = some scope := by rw [Json.scopeId?_normalize hk, hs]
    have hf' : v.normalize.get? "data_classification" = some (.str raw) := by
      rw [Json.get?_normalize hk, hf]
      rfl
    rw [Json.normalize_setField]
    exact classifyJson_named hs' hf' hc
  refine loadsAsTyped_of_decodeJson hpath ?_ h' hblank' (hk.setField _ _)
  rw [loadJson_eq h hblank hk, hclassify, ok_bind]

/-- Any other classification under a scope with a string id is refused with a
validation error for that scope and field. -/
theorem loadInput_json_refused {scope : String} {field : Json} (hs : v.scopeId? = some scope)
    (hf : v.get? "data_classification" = some field)
    (hr : ∀ raw, field = .str raw → ∀ c, Classification.parseFor scope raw ≠ .ok c) :
    ∃ msg, loadInput path text = .error (.validation scope "data_classification" msg) := by
  have hf' : v.normalize.get? "data_classification" = some field.normalize := by
    rw [Json.get?_normalize hk, hf]
    rfl
  have hs' : v.normalize.scopeId? = some scope := by rw [Json.scopeId?_normalize hk, hs]
  obtain ⟨msg, hmsg⟩ := classifyJson_refused hs' hf'
    fun raw hraw => hr raw (JsonText.normalize_eq_str hraw)
  refine ⟨msg, ?_⟩
  simp only [loadInput, hpath, loadJson_eq h hblank hk, hmsg, error_bind]

/-- A document the typed reader takes is loaded as it reads it, unless its scope
has a string id and its classification is not a string. -/
theorem loadInput_json_typed {i : CompilationInput} (hi : CompilationInput.fromJsonText text = .ok i)
    (hstr : ∀ scope field, v.scopeId? = some scope → v.get? "data_classification" = some field →
      ∃ raw, field = .str raw) :
    loadInput path text = .ok i := by
  cases hs : v.scopeId? with
  | none => exact ((loadInput_json_unchanged hpath h hblank hk (.inr hs)).1 i).mpr hi
  | some scope =>
    cases hf : v.get? "data_classification" with
    | none => exact ((loadInput_json_unchanged hpath h hblank hk (.inl hf)).1 i).mpr hi
    | some field =>
      obtain ⟨raw, rfl⟩ := hstr scope field hs hf
      obtain ⟨w, hw⟩ : ∃ w, CompilationInput.schema.readText text = .ok w := by
        unfold CompilationInput.fromJsonText Schema.readTextOrMessage at hi
        cases hr : CompilationInput.schema.readText text with
        | ok w => exact ⟨w, rfl⟩
        | error f => simp [hr] at hi
      have hcheck := (JsonText.readText_eq_checkValue h hblank hk (by decide) w).mp hw
      obtain ⟨c, rfl⟩ := classification_named hk hcheck hf
      have hsame : v.setField "data_classification" (.str c.name) = v := Json.setField_of_get? hk hf
      have hnamed := loadInput_json_named hpath h hblank hk hs hf (Classification.parseFor_name scope c)
        (hsame ▸ h) hblank
      exact (hnamed.1 i).mpr hi

end Loading

/-- Loading a JSON file refines reading it with the typed reader.  Take a text
that spells a value with no name twice in an object, followed by blanks only,
loaded from a path with a JSON extension.  Where the document has no
classification or its scope no string id, loading gives what the typed reader
gives.  Under a scope with a string id, a classification that is a string naming
one is loaded as the typed reader reads the document with the canonical name in
its place, and any other classification is refused with a validation error for
the scope.  A document that the typed reader takes is loaded as it reads it,
unless its scope has a string id and its classification is not a string. -/
theorem loadInput_json_refines_typed_reading {path text : String} {v : Json} {rest : List Char}
    (hpath : DocumentFormat.ofPath path = .json) (h : JsonText.Spells 0 text.toList v rest)
    (hblank : JsonText.skipBlanks rest = []) (hk : v.DistinctKeys) :
    ((v.get? "data_classification" = none ∨ v.scopeId? = none) → LoadsAsTyped path text text) ∧
    (∀ scope raw c text' rest', v.scopeId? = some scope → v.get? "data_classification" = some (.str raw) →
      Classification.parseFor scope raw = .ok c →
      JsonText.Spells 0 text'.toList (v.setField "data_classification" (.str c.name)) rest' →
      JsonText.skipBlanks rest' = [] → LoadsAsTyped path text text') ∧
    (∀ scope field, v.scopeId? = some scope → v.get? "data_classification" = some field →
      (∀ raw, field = .str raw → ∀ c, Classification.parseFor scope raw ≠ .ok c) →
      ∃ msg, loadInput path text = .error (.validation scope "data_classification" msg)) ∧
    (∀ i, CompilationInput.fromJsonText text = .ok i →
      (∀ scope field, v.scopeId? = some scope → v.get? "data_classification" = some field →
        ∃ raw, field = .str raw) →
      loadInput path text = .ok i) :=
  ⟨loadInput_json_unchanged hpath h hblank hk,
    fun _ _ _ _ _ hs hf hc h' hblank' => loadInput_json_named hpath h hblank hk hs hf hc h' hblank',
    fun _ _ hs hf hr => loadInput_json_refused hpath h hblank hk hs hf hr,
    fun _ hi hstr => loadInput_json_typed hpath h hblank hk hi hstr⟩

/-- A project document whose classification is written loosely. -/
def ledgerText : String :=
  "\x7b\"scope\":\x7b\"tier\":\"project\",\"id\":\"ledger\"\x7d,\"data_classification\":\" Public\"\x7d"

/-- The same document with the classification by its canonical name. -/
def canonicalLedgerText : String :=
  "\x7b\"scope\":\x7b\"tier\":\"project\",\"id\":\"ledger\"\x7d,\"data_classification\":\"public\"\x7d"

/-- A loosely written classification loads as the typed reader reads the
document with the classification by its canonical name. -/
theorem ledger_loads_as_canonical_typed_reading :
    DocumentFormat.ofPath "ledger.json" = .json ∧
    JsonText.Spells 0 ledgerText.toList
      (.obj [("scope", .obj [("tier", .str "project"), ("id", .str "ledger")]),
        ("data_classification", .str " Public")]) [] ∧
    JsonText.skipBlanks [] = [] ∧
    (Json.obj [("scope", .obj [("tier", .str "project"), ("id", .str "ledger")]),
        ("data_classification", .str " Public")]).DistinctKeys ∧
    LoadsAsTyped "ledger.json" ledgerText canonicalLedgerText := by
  have hpath : DocumentFormat.ofPath "ledger.json" = .json := by decide +kernel
  have h : JsonText.Spells 0 ledgerText.toList
      (.obj [("scope", .obj [("tier", .str "project"), ("id", .str "ledger")]),
        ("data_classification", .str " Public")]) [] := by
    repeat' (first | rfl | decide | constructor)
  have hk : (Json.obj [("scope", .obj [("tier", .str "project"), ("id", .str "ledger")]),
      ("data_classification", .str " Public")]).DistinctKeys := by
    repeat' (first | decide | constructor |
      simp only [List.mem_cons, List.not_mem_nil, or_false, forall_eq_or_imp, forall_eq])
  have h' : JsonText.Spells 0 canonicalLedgerText.toList
      (.obj [("scope", .obj [("tier", .str "project"), ("id", .str "ledger")]),
        ("data_classification", .str "public")]) [] := by
    repeat' (first | rfl | decide | constructor)
  refine ⟨hpath, h, rfl, hk, ?_⟩
  exact (loadInput_json_refines_typed_reading hpath h rfl hk).2.1 "ledger" " Public" .publicData
    canonicalLedgerText [] rfl rfl (by decide +kernel) h' rfl

/-- A project document with a member the input does not know, holding a number
out of range. -/
def outOfRangeMemberText : String :=
  "\x7b\"scope\":\x7b\"tier\":\"project\",\"id\":\"abcdef\"\x7d,\"x\":1e400\x7d"

/-- Loading reads the whole text before the input's schema is known, so it
refuses a member that the typed reader only skips. -/
theorem typed_reading_skips_unknown_member :
    (CompilationInput.fromJsonText outOfRangeMemberText).toBool = true ∧
      loadInput "input.json" outOfRangeMemberText =
        .error (.load "input.json" "number out of range at line 1 column 51") := by
  decide +kernel

end DenyPolicy
