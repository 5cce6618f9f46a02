import DenyPolicy.Proofs.JsonGrammar
import DenyPolicy.Proofs.CheckOrder
/-!
# The typed reader of JSON text

`Schema.readText` reads a JSON text against a schema in one pass: it looks at
each value's first character to decide what the schema takes there, skips the
members a record does not know, and refuses as soon as the text and the schema
part ways.  The loader reads a text the other way: first any value, then the
check of its keyed view (members sorted by name) against the schema.

For a text that spells a value (`JsonText.Spells`) with no name twice in an
object, the two agree (`JsonText.readText_eq_checkValue`): the typed reader
takes the text with a value exactly when the check takes the keyed view with
that value.  The agreement holds one value and one loop of the reader at a time
(`JsonText.ReadsAt`): each loop is compared with the check of what it has still
to read, in the order written, and the order is then forgotten with the lemmas
of `Schema.checkRecord_perm` and its kind.  The whole is proved by induction on
the reader's fuel (`JsonText.reads`), each step calling the others with less.
-/

namespace DenyPolicy

namespace JsonText

open Json Schema

/-- The typed reader's answer agrees with the check's: both refuse, or both take
the same value, the reader stopping at `rest`. -/
def Agrees {α : Type} (rest : List Char) : Except Fault (α × List Char) → Except Mismatch α → Prop
  | .ok (a, r), .ok b => a = b ∧ r = rest
  | .error _, .error _ => True
  | _, _ => False

theorem Agrees.of_sameAnswer {α : Type} {rest : List Char} {a : Except Fault (α × List Char)}
    {b c : Except Mismatch α} (h : Agrees rest a b) (hbc : SameAnswer b c) : Agrees rest a c := by
  cases b with
  | ok y =>
    cases c with
    | ok z =>
      obtain rfl : y = z := hbc
      exact h
    | error m => exact hbc.elim
  | error e =>
    cases c with
    | ok z => exact hbc.elim
    | error m =>
      cases a with
      | ok p =>
        obtain ⟨x, r⟩ := p
        exact h.elim
      | error f => trivial

theorem Agrees.of_error {α : Type} {rest : List Char} {a : Except Fault (α × List Char)}
    {b : Except Mismatch α} (ha : ∃ e, a = .error e) (hb : ∃ m, b = .error m) : Agrees rest a b := by
  obtain ⟨e, rfl⟩ := ha
  obtain ⟨m, rfl⟩ := hb
  trivial

theorem mismatchHere_error {α : Type} (m : Mismatch) (r : List Char) :
    ∃ e, (mismatchHere m r : Except Fault α) = .error e :=
  ⟨_, rfl⟩

theorem bind_error {ε α β : Type} (x : Except ε α) {k : α → Except ε β} (hk : ∀ a, ∃ e, k a = .error e) :
    ∃ e, x >>= k = .error e := by
  cases x with
  | error e => exact ⟨e, rfl⟩
  | ok a => exact hk a

/-- A value of the wrong kind is refused, whatever it is. -/
theorem wrongKind_error (expected : String) (b : List Char) : ∃ e, wrongKind expected b = .error e := by
  unfold wrongKind
  split
  · exact bind_error _ fun _ => mismatchHere_error _ _
  · exact bind_error _ fun _ => mismatchHere_error _ _
  · exact bind_error _ fun _ => mismatchHere_error _ _
  · exact bind_error _ fun _ => mismatchHere_error _ _
  · exact bind_error _ fun _ => mismatchHere_error _ _
  · exact mismatchHere_error _ _
  · exact mismatchHere_error _ _
  · split
    · exact bind_error _ fun _ => mismatchHere_error _ _
    · exact ⟨_, rfl⟩
  · exact ⟨_, rfl⟩

theorem checkFully_eq_succ (r : ValueRules) (s : Schema) (v : Yaml) :
    checkFully r s v = check r (2 * v.nodeCount + s.cost - 1 + 1) s v := by
  have : 1 ≤ s.cost := by cases s <;> simp only [cost] <;> omega
  rw [checkFully, Nat.sub_add_cancel (by omega)]

@[simp] theorem agrees_error {α : Type} {rest : List Char} (e : Fault) (m : Mismatch) :
    Agrees (α := α) rest (.error e) (.error m) := trivial

@[simp] theorem agrees_ok {α : Type} {rest r : List Char} (a b : α) :
    Agrees rest (.ok (a, r)) (.ok b) ↔ a = b ∧ r = rest := Iff.rfl

@[simp] theorem agrees_wrongKind {rest : List Char} (expected : String) (b : List Char) (m : Mismatch) :
    Agrees rest (wrongKind expected b) (.error m) :=
  Agrees.of_error (wrongKind_error expected b) ⟨m, rfl⟩

theorem Spells.skipBlanks {depth : Nat} {cs rest : List Char} {v : Json} (h : Spells depth cs v rest) :
    Spells depth (JsonText.skipBlanks cs) v rest := by
  cases h with
  | null hb h => exact .null (by rw [skipBlanks_skipBlanks, hb]) h
  | trueLit hb h => exact .trueLit (by rw [skipBlanks_skipBlanks, hb]) h
  | falseLit hb h => exact .falseLit (by rw [skipBlanks_skipBlanks, hb]) h
  | negative hb h => exact .negative (by rw [skipBlanks_skipBlanks, hb]) h
  | number hb hd h => exact .number (by rw [skipBlanks_skipBlanks, hb]) hd h
  | str hb h => exact .str (by rw [skipBlanks_skipBlanks, hb]) h
  | arr hb hd h => exact .arr (by rw [skipBlanks_skipBlanks, hb]) hd h
  | obj hb hd h => exact .obj (by rw [skipBlanks_skipBlanks, hb]) hd h

theorem checkFully_optional {r : ValueRules} {s : Schema} {y : Yaml} (hy : y ≠ .null) :
    checkFully r (.optional s) y = checkFully r s y := by
  rw [checkFully_eq_succ]
  cases y with
  | null => exact absurd rfl hy
  | _ =>
    simp only [Schema.check, cost]
    exact check_eq_checkFully (by omega)

theorem readAs_optional_of_ne {g d : Nat} {s : Schema} {cs r : List Char} {c : Char}
    (hb : JsonText.skipBlanks cs = c :: r) (hc : c ≠ 'n') :
    readAs (g + 1) d (.optional s) cs = readAs g d s (JsonText.skipBlanks cs) := by
  rw [readAs.eq_def]
  simp only [hb, List.cons.injEq, hc, false_and, imp_self, implies_true]

theorem length_sub_skipBlanks_le (cs rest : List Char) :
    (JsonText.skipBlanks cs).length - rest.length ≤ cs.length - rest.length := by
  have := length_skipBlanks_le cs
  omega

theorem agrees_anything {g d : Nat} {cs rest : List Char} {v : Json} (h : Spells d cs v rest)
    (hg : 2 * (cs.length - rest.length) + Schema.anything.cost + 1 ≤ g) :
    Agrees rest (readAs g d .anything cs) (checkFully ValueRules.json .anything v.normalize.asDocument) := by
  obtain ⟨g, rfl⟩ : ∃ f, g = f + 2 := ⟨g - 2, by simp only [cost] at hg; omega⟩
  simp only [cost] at hg
  rw [readAs_anything_of_ne h.skipBlanks_ne_nil, Spells.readAny h (g + 1) (by omega), checkFully_eq_succ]
  simp only [Schema.check, toJson_asDocument, agrees_ok, and_self]

theorem normalize_ne_null {v : Json} (hv : v ≠ .null) : v.normalize.asDocument ≠ .null := by
  cases v with
  | null => exact absurd rfl hv
  | obj fs => simp only [normalize_obj, Json.asDocument, ne_eq, reduceCtorEq, not_false_eq_true]
  | _ => simp only [Json.normalize, Json.asDocument, ne_eq, reduceCtorEq, not_false_eq_true]

theorem normalize_eq_str {x : Json} {name : String} (h : x.normalize = .str name) : x = .str name := by
  cases x with
  | str s => simpa only [Json.normalize] using h
  | obj fs => simp only [normalize_obj, reduceCtorEq] at h
  | _ => simp only [Json.normalize, reduceCtorEq] at h

/-- An optional schema reads a value other than `null` as its schema does. -/
theorem agrees_optional {g d : Nat} {s : Schema} {cs rest : List Char} {v : Json}
    (value : ∀ (s : Schema) {cs : List Char}, Spells d cs v rest → 2 * (cs.length - rest.length) + s.cost + 1 ≤ g →
      Agrees rest (readAs g d s cs) (checkFully ValueRules.json s v.normalize.asDocument))
    (h : Spells d cs v rest) (hv : v ≠ .null) (hg : 2 * (cs.length - rest.length) + (Schema.optional s).cost + 1 ≤ g + 1) :
    Agrees rest (readAs (g + 1) d (.optional s) cs) (checkFully ValueRules.json (.optional s) v.normalize.asDocument) := by
  obtain ⟨c, r, hb⟩ := List.exists_cons_of_ne_nil h.skipBlanks_ne_nil
  have hc : c ≠ 'n' := by
    rintro rfl
    cases h <;> simp_all
  simp only [cost] at hg
  rw [readAs_optional_of_ne hb hc, checkFully_optional (normalize_ne_null hv)]
  exact value s h.skipBlanks (by have := length_sub_skipBlanks_le cs rest; omega)

theorem eq_false_of_isDigit {c d : Char} (hc : c.isDigit = true) (hd : d.isDigit = false) : (c = d) = False :=
  eq_false fun h => by rw [h, hd] at hc; exact Bool.false_ne_true hc

@[simp] theorem agrees_unsignedValue {rest : List Char} (r : ValueRules) (width : Nat) (name : String)
    (n : Numeral) (f : Nat) :
    Agrees rest (unsignedValue width name n rest) (check r (f + 1) (.unsigned width name) (.num n)) := by
  cases n with
  | nat k =>
    by_cases hk : k < Nat.pow 2 width
    · simp only [unsignedValue, Schema.check, hk, ↓reduceIte, agrees_ok, and_self]
    · simp only [unsignedValue, Schema.check, hk, ↓reduceIte, mismatchHere, agrees_error]
  | negInt k => simp only [unsignedValue, Schema.check, mismatchHere, agrees_error]
  | float negative m => simp only [unsignedValue, Schema.check, mismatchHere, agrees_error]

theorem Agrees.bind {α β : Type} {rest r : List Char} {a : Except Fault (α × List Char)}
    {b : Except Mismatch α} (h : Agrees r a b) {k : α × List Char → Except Fault (β × List Char)}
    {k' : α → Except Mismatch β} (hk : ∀ x, Agrees rest (k (x, r)) (k' x)) :
    Agrees rest (a >>= k) (b >>= k') := by
  match a, b, h with
  | .ok (x, _), .ok _, ⟨rfl, rfl⟩ => exact hk x
  | .error _, .error _, _ => trivial

theorem Agrees.map {α β : Type} {rest : List Char} {a : Except Fault (α × List Char)}
    {b : Except Mismatch α} (h : Agrees rest a b) (f : α → β) :
    Agrees rest (a >>= fun p => pure (f p.1, p.2)) (b.map f) := by
  match a, b, h with
  | .ok (_, _), .ok _, ⟨rfl, rfl⟩ => exact ⟨rfl, rfl⟩
  | .error _, .error _, _ => trivial

theorem map_bind {ε α β γ : Type} (f : β → γ) (x : Except ε α) (k : α → Except ε β) :
    (x >>= k).map f = x >>= fun a => (k a).map f := by
  cases x <;> rfl

theorem bind_map {ε α β γ : Type} (f : α → β) (x : Except ε α) (k : β → Except ε γ) :
    x.map f >>= k = x >>= fun a => k (f a) := by
  cases x <;> rfl

theorem map_nil_append {ε α : Type} (b : Except ε (List α)) : b.map ([] ++ ·) = b := by
  cases b <;> rfl

theorem closeArray_of_done {first : Bool} {cs after : List Char} (h : nextItem first cs = .ok (.done after)) :
    closeArray cs = .ok after := by
  unfold closeArray
  simp only [nextItem_done h]

/-- Where items remain, closing the array fails. -/
theorem closeArray_of_more {first : Bool} {cs start : List Char} (h : nextItem first cs = .ok (.more start)) :
    ∃ e, closeArray cs = .error e := by
  unfold closeArray
  rcases nextItem_more h with ⟨-, rfl, c, r, hcr, hc⟩ | ⟨-, r, hr, -⟩
  · rw [hcr]
    dsimp only
    split
    · next heq => exact absurd (List.cons.inj heq).1 hc
    · split <;> exact ⟨_, rfl⟩
    · simp at *
    · exact ⟨_, rfl⟩
  · rw [hr]
    dsimp only
    split
    · next heq => simp at heq
    · split <;> exact ⟨_, rfl⟩
    · simp at *
    · exact ⟨_, rfl⟩

theorem Spells.head {depth : Nat} {cs rest : List Char} {v : Json} (h : Spells depth cs v rest) :
    ∃ c r, JsonText.skipBlanks cs = c :: r ∧ (c = '"' → ∃ s, v = .str s) ∧ (c = 'n' → v = .null) := by
  cases h with
  | null hb _ => exact ⟨_, _, hb, fun h => absurd h (by decide), fun _ => rfl⟩
  | str hb _ => exact ⟨_, _, hb, fun _ => ⟨_, rfl⟩, fun h => absurd h (by decide)⟩
  | trueLit hb _ | falseLit hb _ | negative hb _ | arr hb _ _ | obj hb _ _ =>
    exact ⟨_, _, hb, fun h => absurd h (by decide), fun h => absurd h (by decide)⟩
  | @number _ _ _ _ c _ hb hd _ =>
    refine ⟨c, _, hb, fun h => ?_, fun h => ?_⟩ <;> (subst h; simp at hd)

theorem Spells.str_inv {depth : Nat} {cs rest : List Char} {t : String} (h : Spells depth cs (.str t) rest) :
    ∃ r, JsonText.skipBlanks cs = '"' :: r ∧ scanString r = .ok (t, rest) := by
  cases h with
  | str hb hs => exact ⟨_, hb, hs⟩

theorem Spells.arr_inv {depth : Nat} {cs rest : List Char} {xs : List Json} (h : Spells depth cs (.arr xs) rest) :
    ∃ r, JsonText.skipBlanks cs = '[' :: r ∧ depth < maxDepth ∧ SpellsItems (depth + 1) true r xs rest := by
  cases h with
  | arr hb hd hitems => exact ⟨_, hb, hd, hitems⟩

theorem Spells.obj_inv {depth : Nat} {cs rest : List Char} {fs : List (String × Json)}
    (h : Spells depth cs (.obj fs) rest) :
    ∃ r, JsonText.skipBlanks cs = '\x7b' :: r ∧ depth < maxDepth ∧ SpellsFields (depth + 1) true r fs rest := by
  cases h with
  | obj hb hd hfields => exact ⟨_, hb, hd, hfields⟩

abbrev keyedDocument (v : Json) : Yaml := v.normalize.asDocument

theorem keyedDocument_arr (xs : List Json) : keyedDocument (.arr xs) = .seq (xs.map keyedDocument) := by
  rw [keyedDocument, Json.normalize, asDocument, asDocumentItems_eq_map, normalizeItems_eq_map, List.map_map]
  rfl

theorem keyedDocument_obj (fs : List (String × Json)) :
    keyedDocument (.obj fs) = .map (asDocumentFields (sortFields (normalizeFields fs))) := by
  rw [keyedDocument, normalize_obj, asDocument]

theorem keyedDocument_eq_str {x : Json} {name : String} (h : keyedDocument x = .str name) : x = .str name := by
  apply normalize_eq_str
  cases hx : x.normalize <;> rw [keyedDocument, hx] at h <;> simp_all [Json.asDocument]

theorem keyedDocument_single (k : String) (x : Json) :
    keyedDocument (.obj [(k, x)]) = .map [(.str k, keyedDocument x)] := by
  rw [keyedDocument_obj]
  rfl

/-- An object of two members or more is not a choice. -/
theorem check_choice_many (names : List String) (aliases : List (String × String)) (f : Nat)
    {kv kv' : String × Json} {fs : List (String × Json)} (hn : ((kv :: kv' :: fs).map Prod.fst).Nodup) :
    ∃ m, check ValueRules.json (f + 1) (.choice names aliases) (keyedDocument (.obj (kv :: kv' :: fs))) =
      .error m := by
  have hn' := hn
  rw [← map_fst_normalizeFields] at hn'
  have hlen := (sortFields_perm hn').length_eq
  rw [keyedDocument_obj]
  obtain ⟨a, b, es, hes⟩ : ∃ a b es, asDocumentFields (sortFields (normalizeFields (kv :: kv' :: fs))) =
      a :: b :: es := by
    match sortFields (normalizeFields (kv :: kv' :: fs)), hlen with
    | x :: y :: gs, _ => exact ⟨_, _, _, rfl⟩
  have hc : ValueRules.json.choiceFromMap = true := rfl
  rw [hes]
  simp only [Schema.check, hc, ↓reduceIte]
  exact ⟨_, rfl⟩

/-- A choice written as a string is one of its names or aliases. -/
theorem agrees_choice {g d : Nat} {cs rest : List Char} {t : String} (names : List String)
    (aliases : List (String × String)) (h : Spells d cs (.str t) rest) :
    Agrees rest (readAs (g + 1) d (.choice names aliases) cs)
      (checkFully ValueRules.json (.choice names aliases) (keyedDocument (.str t))) := by
  obtain ⟨r, hb, hs⟩ := h.str_inv
  rw [checkFully_eq_succ]
  unfold readAs
  simp only [hb, hs, ok_bind, keyedDocument, Json.normalize, Json.asDocument, Schema.check]
  cases choose names aliases t with
  | some c => exact ⟨rfl, rfl⟩
  | none => exact Agrees.of_error (mismatchHere_error _ _) ⟨_, rfl⟩

/-- A string with a parsed form is refused for the reason its parser gives. -/
theorem agrees_parsed {g d : Nat} {cs rest : List Char} {t : String} (what : String)
    (accept : String → Option String) (h : Spells d cs (.str t) rest) :
    Agrees rest (readAs (g + 1) d (.parsed what accept) cs)
      (checkFully ValueRules.json (.parsed what accept) (keyedDocument (.str t))) := by
  obtain ⟨r, hb, hs⟩ := h.str_inv
  rw [checkFully_eq_succ]
  unfold readAs
  simp only [hb, hs, ok_bind, keyedDocument, Json.normalize, Json.asDocument, Schema.check]
  cases accept t with
  | some reason => exact Agrees.of_error (mismatchHere_error _ _) ⟨_, rfl⟩
  | none => exact ⟨rfl, rfl⟩

/-- A tagged record written as an array: the tag first, then the members of its
kind by place. -/
theorem agrees_taggedItems {g d : Nat} {cs rest : List Char} {xs : List Json} (name tag : String)
    (kinds : List (String × Members)) (h : Spells d cs (.arr xs) rest) (hk : (Json.arr xs).DistinctKeys)
    (hg : 2 * (cs.length - rest.length) + (Schema.tagged name tag kinds).cost + 1 ≤ g + 1) :
    Agrees rest (readAs (g + 1) d (.tagged name tag kinds) cs)
      (checkFully ValueRules.json (.tagged name tag kinds) (keyedDocument (.arr xs))) := by
  obtain ⟨r, hb, hd, hitems⟩ := h.arr_inv
  cases hk with
  | arr hks =>
  have hr : r.length < cs.length := by
    have := length_skipBlanks_le cs
    rw [hb, List.length_cons] at this
    omega
  have hcount : Yaml.nodeCountItems (xs.map keyedDocument) + rest.length < r.length := by
    have := hitems.nodeCount_le
    rwa [asDocumentItems_eq_map, ← nodeCountItems_map_congr fun x hx => nodeCount_normalize (hks x hx)] at this
  rw [keyedDocument_arr, ← (check_eq_checkFully (by simp only [Yaml.nodeCount, cost] at hg ⊢; omega) :
    check ValueRules.json (g + 1 + 1) _ _ = _)]
  unfold readAs
  simp only [hb, Nat.not_le.mpr hd, ↓reduceIte, Schema.check]
  obtain ⟨g, rfl⟩ : ∃ f, g = f + 1 := ⟨g - 1, by simp only [cost] at hg; omega⟩
  unfold readTaggedItems
  cases hitems with
  | done hn =>
    simp only [hn, ok_bind, List.map_nil, checkTaggedItems]
    exact Agrees.of_error (mismatchHere_error _ _) ⟨_, rfl⟩
  | @more _ _ _ start r1 _ x xs hn hx hxs =>
    simp only [hn, ok_bind, List.map_cons, checkTaggedItems, untag_asDocument]
    by_cases hv : ∃ t, x = .str t
    · obtain ⟨t, rfl⟩ := hv
      obtain ⟨r0, hb0, hs0⟩ := hx.str_inv
      simp only [hb0, hs0, ok_bind, Json.normalize, Json.asDocument]
      cases hl : kinds.lookup t with
      | none => exact Agrees.of_error (mismatchHere_error _ _) ⟨_, rfl⟩
      | some members =>
        have hitems' : (normalizeItems xs).map Json.asDocument = xs.map keyedDocument := by
          rw [normalizeItems_eq_map, List.map_map]
          rfl
        have hno : Yaml.holdsTagItems (xs.map keyedDocument) = false := by
          rw [← hitems', ← asDocumentItems_eq_map, holdsTagItems_asDocumentItems]
        have hq : ValueRules.json.quoting = .json := rfl
        have h1 := hx.length_lt
        have h2 := hxs.length_lt
        have h3 := length_of_nextItem_more hn
        simp only [hxs.readItems g [] (by omega), ok_bind, List.reverse_nil, List.nil_append, hitems', hno,
          Bool.false_eq_true, ↓reduceIte, hq]
        cases checkPositional (ValueRules.content .json) (g + 1)
          ("variant " ++ name ++ "::" ++ Schema.variantName t) members (xs.map keyedDocument) with
        | error m => exact Agrees.of_error (mismatchHere_error _ _) ⟨_, rfl⟩
        | ok v => cases v <;> simp only [ok_bind, pure_eq_ok, agrees_ok, and_self]
    · obtain ⟨c, r0, hb0, hquote, -⟩ := hx.head
      have hc0 : c ≠ '"' := fun hc => hv (hquote hc)
      have hstr : ∀ k, keyedDocument x ≠ .str k := fun k hk => hv ⟨k, keyedDocument_eq_str hk⟩
      rw [hb0]
      split
      · next heq => exact absurd (List.cons.inj heq).1 hc0
      · next heq => simp at heq
      · refine Agrees.of_error (wrongKind_error _ _) ?_
        split
        · next k heq => exact absurd heq (hstr k)
        · exact ⟨_, rfl⟩

/-- A choice written as an object has one member, from one of its names or
aliases to `null`. -/
theorem agrees_choiceMap {g d : Nat} {cs rest : List Char} {fs : List (String × Json)} (names : List String)
    (aliases : List (String × String)) (h : Spells d cs (.obj fs) rest) (hk : (Json.obj fs).DistinctKeys) :
    Agrees rest (readAs (g + 1) d (.choice names aliases) cs)
      (checkFully ValueRules.json (.choice names aliases) (keyedDocument (.obj fs))) := by
  obtain ⟨r, hb, hd, hfields⟩ := h.obj_inv
  rw [checkFully_eq_succ]
  unfold readAs
  simp only [hb, Nat.not_le.mpr hd, ↓reduceIte]
  generalize 2 * (keyedDocument (.obj fs)).nodeCount + (Schema.choice names aliases).cost - 1 = f
  have hc : ValueRules.json.choiceFromMap = true := rfl
  cases hfields with
  | done hdone =>
    obtain ⟨e, he⟩ := wrongKind_error "variant identifier" ('\x7d' :: rest)
    unfold readChoiceMap
    simp only [nextKey_done hdone, he, error_bind]
    refine Agrees.of_error ⟨_, rfl⟩ ?_
    simp only [keyedDocument_obj, normalizeFields, sortFields, List.foldl_nil, asDocumentFields, Schema.check,
      hc, ↓reduceIte]
    exact ⟨_, rfl⟩
  | @more _ _ _ start r1 r' r'' _ k x fs hnext hkey hcolon hx hfs =>
    cases hk with
    | obj hn hks =>
    have hstart : skipBlanks r = '"' :: start := by
      rcases nextKey_more hnext with ⟨-, h⟩ | ⟨h, -⟩
      · exact h
      · cases h
    unfold readChoiceMap
    simp only [hstart, hkey, ok_bind]
    cases hch : choose names aliases k with
    | none =>
      refine Agrees.of_error (mismatchHere_error _ _) ?_
      cases fs with
      | nil => simp only [keyedDocument_single, Schema.check, hc, ↓reduceIte, hch]; exact ⟨_, rfl⟩
      | cons kv fs => exact check_choice_many names aliases f hn
    | some c =>
      simp only [hcolon, ok_bind]
      by_cases hxn : x = .null
      · subst hxn
        cases hx with
        | null hb0 hid =>
        simp only [hb0, hid, ok_bind]
        cases hfs with
        | done hdone =>
          rw [keyedDocument_single]
          simp only [nextKey_done hdone, Schema.check, hc, ↓reduceIte, hch, keyedDocument, Json.normalize,
            Json.asDocument]
          exact ⟨rfl, rfl⟩
        | more hnext' _ _ _ _ =>
          rcases nextKey_more hnext' with ⟨h, -⟩ | ⟨-, r2, hcomma, -⟩
          · cases h
          refine Agrees.of_error ?_ (check_choice_many names aliases f hn)
          rw [hcomma]
          exact ⟨_, rfl⟩
      · obtain ⟨c0, r0, hb0, -, hnull⟩ := hx.head
        have hc0 : c0 ≠ 'n' := fun h => hxn (hnull h)
        obtain ⟨e, he⟩ := wrongKind_error "unit" (c0 :: r0)
        refine Agrees.of_error ?_ ?_
        · rw [hb0]
          split
          · next heq => exact absurd (List.cons.inj heq).1 hc0
          · next heq => simp at heq
          · simp only [he, error_bind]
            exact ⟨_, rfl⟩
        · cases fs with
          | nil =>
            simp only [keyedDocument_single, Schema.check, hc, ↓reduceIte, hch]
            split
            · next heq => exact absurd heq (normalize_ne_null hxn)
            · exact ⟨_, rfl⟩
          | cons kv fs => exact check_choice_many names aliases f hn

/-- Reading with fuel `g` agrees with the check wherever the fuel covers what is
read: a value against any schema, and each loop of the reader against the check
of what it has still to read. -/
structure ReadsAt (g : Nat) : Prop where
  value : ∀ {d : Nat} {cs rest : List Char} {v : Json} (s : Schema), Spells d cs v rest →
    v.DistinctKeys → 2 * (cs.length - rest.length) + s.cost + 1 ≤ g →
    Agrees rest (readAs g d s cs) (checkFully ValueRules.json s (keyedDocument v))
  items : ∀ {d : Nat} {first : Bool} {cs rest : List Char} {xs : List Json} (s : Schema) (acc : List Json),
    SpellsItems d first cs xs rest → (∀ x ∈ xs, x.DistinctKeys) →
    2 * (cs.length - rest.length) + s.cost + 1 ≤ g →
    Agrees rest (readItems g d s first acc cs)
      (((xs.map keyedDocument).mapM (checkFully ValueRules.json s)).map (acc.reverse ++ ·))
  entries : ∀ {d : Nat} {first : Bool} {cs rest : List Char} {fs : List (String × Json)} (s : Schema)
    (acc : List (String × Json)), SpellsFields d first cs fs rest → (∀ kv ∈ fs, kv.2.DistinctKeys) →
    2 * (cs.length - rest.length) + s.cost + 1 ≤ g →
    Agrees rest (readEntries g d s first acc cs)
      (((normalizeFields fs).mapM (checkEntry ValueRules.json s)).map (acc.reverse ++ ·))
  members : ∀ {d : Nat} {first : Bool} {cs rest : List Char} {fs : List (String × Json)}
    (members : Members) (found : List (String × Json)), SpellsFields d first cs fs rest →
    (∀ kv ∈ fs, kv.2.DistinctKeys) → (fs.map Prod.fst ++ found.map Prod.fst).Nodup →
    2 * (cs.length - rest.length) + membersCost members + 1 ≤ g →
    Agrees rest (readMembers g d members first found cs)
      ((memberEntries members (normalizeFields fs)).mapM (checkMember ValueRules.json) >>= fun l =>
        closeRecord members (l.reverse ++ found))
  places : ∀ {d : Nat} {first : Bool} {cs rest : List Char} {xs : List Json} (name : String) (total : Nat)
    (members : Members) (i : Nat) (found : List (String × Json)) (f : Nat) (e : Mismatch),
    SpellsItems d first cs xs rest → (∀ x ∈ xs, x.DistinctKeys) →
    2 * (cs.length - rest.length) + membersCost members + members.length + 1 ≤ g →
    2 * Yaml.nodeCountItems (xs.map keyedDocument) + membersCost members + members.length + 1 ≤ f →
    Agrees rest (readPlaces g d name total members i first found cs)
      (checkPlaces ValueRules.json f (positional name total) i members (xs.map keyedDocument) >>= fun l =>
        if members.length < xs.length then .error e else .ok (.obj (found.reverse ++ l)))
  tagged : ∀ {d : Nat} {first : Bool} {cs rest : List Char} {fs : List (String × Json)} (tag : String)
    (kinds : List (String × Members)) (aside : List (String × Json)) (kind : Option String) (f : Nat),
    SpellsFields d first cs fs rest → (∀ kv ∈ fs, kv.2.DistinctKeys) →
    2 * (cs.length - rest.length) + 2 * Yaml.nodeCountEntries (asDocumentFields aside) + kindsCost kinds + 1 ≤ g →
    2 * Yaml.nodeCountEntries (asDocumentFields (normalizeFields fs)) +
        (2 * Yaml.nodeCountEntries (asDocumentFields aside) - aside.length) + kindsCost kinds + 1 ≤ f →
    Agrees rest (readTagged g d tag kinds first (asDocumentFields aside) kind cs)
      (checkTagged ValueRules.json f tag kinds (asDocumentFields (normalizeFields fs)) (asDocumentFields aside)
        kind)

section Steps

variable {g : Nat} (ih : ∀ g' < g, ReadsAt g')
include ih

theorem items_step {d : Nat} {first : Bool} {cs rest : List Char} {xs : List Json} (s : Schema)
    (acc : List Json) (h : SpellsItems d first cs xs rest) (hk : ∀ x ∈ xs, x.DistinctKeys)
    (hg : 2 * (cs.length - rest.length) + s.cost + 1 ≤ g) :
    Agrees rest (readItems g d s first acc cs)
      (((xs.map keyedDocument).mapM (checkFully ValueRules.json s)).map (acc.reverse ++ ·)) := by
  obtain ⟨g, rfl⟩ : ∃ f, g = f + 1 := ⟨g - 1, by omega⟩
  cases h with
  | done hn =>
    unfold readItems
    simp only [hn, ok_bind, List.map_nil, List.mapM_nil, pure_eq_ok, Except.map, List.append_nil,
      agrees_ok, and_self]
  | @more _ _ _ start r _ x xs hn hx hxs =>
    have h1 := length_of_nextItem_more hn
    have h2 := hx.length_lt
    have h3 := hxs.length_lt
    have hs := ih g (by omega)
    unfold readItems
    simp only [hn, ok_bind, List.map_cons, List.mapM_cons, map_bind]
    refine (hs.value s hx (hk _ List.mem_cons_self) (by omega)).bind fun y => ?_
    have hrest := hs.items s (y :: acc) hxs (fun x hx => hk x (List.mem_cons_of_mem _ hx)) (by omega)
    cases hm : (xs.map keyedDocument).mapM (checkFully ValueRules.json s) with
    | error m => simp only [hm, Except.map] at hrest ⊢; exact hrest
    | ok ys =>
      simp only [hm, Except.map, ok_bind, pure_eq_ok, List.reverse_cons, List.append_assoc,
        List.singleton_append] at hrest ⊢
      exact hrest

theorem entries_step {d : Nat} {first : Bool} {cs rest : List Char} {fs : List (String × Json)}
    (s : Schema) (acc : List (String × Json)) (h : SpellsFields d first cs fs rest)
    (hk : ∀ kv ∈ fs, kv.2.DistinctKeys) (hg : 2 * (cs.length - rest.length) + s.cost + 1 ≤ g) :
    Agrees rest (readEntries g d s first acc cs)
      (((normalizeFields fs).mapM (checkEntry ValueRules.json s)).map (acc.reverse ++ ·)) := by
  obtain ⟨g, rfl⟩ : ∃ f, g = f + 1 := ⟨g - 1, by omega⟩
  cases h with
  | done hn =>
    unfold readEntries
    simp only [hn, ok_bind, normalizeFields, List.mapM_nil, pure_eq_ok, Except.map, List.append_nil,
      agrees_ok, and_self]
  | @more _ _ _ start r r' r'' _ k x fs hn hkey hc hx hfs =>
    have h1 := length_of_nextKey_more hn
    have h2 := length_of_scanString hkey
    have h3 := length_of_colon hc
    have h4 := hx.length_lt
    have h5 := hfs.length_lt
    have hs := ih g (by omega)
    unfold readEntries
    simp only [hn, hkey, hc, ok_bind, normalizeFields, List.mapM_cons, map_bind, checkEntry, bind_map]
    refine (hs.value s hx (hk _ List.mem_cons_self) (by omega)).bind fun y => ?_
    have hrest := hs.entries s ((k, y) :: acc) hfs (fun kv hkv => hk kv (List.mem_cons_of_mem _ hkv))
      (by omega)
    cases hm : (normalizeFields fs).mapM (checkEntry ValueRules.json s) with
    | error m => simp only [hm, Except.map] at hrest ⊢; exact hrest
    | ok ys =>
      simp only [hm, Except.map, ok_bind, pure_eq_ok, List.reverse_cons, List.append_assoc,
        List.singleton_append] at hrest ⊢
      exact hrest

theorem members_step {d : Nat} {first : Bool} {cs rest : List Char} {fs : List (String × Json)}
    (members : Members) (found : List (String × Json)) (h : SpellsFields d first cs fs rest)
    (hk : ∀ kv ∈ fs, kv.2.DistinctKeys) (hn : (fs.map Prod.fst ++ found.map Prod.fst).Nodup)
    (hg : 2 * (cs.length - rest.length) + membersCost members + 1 ≤ g) :
    Agrees rest (readMembers g d members first found cs)
      ((memberEntries members (normalizeFields fs)).mapM (checkMember ValueRules.json) >>= fun l =>
        closeRecord members (l.reverse ++ found)) := by
  obtain ⟨g, rfl⟩ : ∃ f, g = f + 1 := ⟨g - 1, by omega⟩
  cases h with
  | done hdone =>
    unfold readMembers
    simp only [hdone, ok_bind, normalizeFields, memberEntries, List.filterMap_nil, List.mapM_nil,
      pure_eq_ok, List.reverse_nil, List.nil_append, closeRecord]
    cases absentMembers (found.map (·.1)) members with
    | error m => exact Agrees.of_error ⟨_, rfl⟩ ⟨m, rfl⟩
    | ok absent => exact ⟨rfl, rfl⟩
  | @more _ _ _ start r r' r'' _ k x fs hnext hkey hc hx hfs =>
    have h1 := length_of_nextKey_more hnext
    have h2 := length_of_scanString hkey
    have h3 := length_of_colon hc
    have h4 := hx.length_lt
    have h5 := hfs.length_lt
    have hs := ih g (by omega)
    have hkfs : ∀ kv ∈ fs, kv.2.DistinctKeys := fun kv hkv => hk kv (List.mem_cons_of_mem _ hkv)
    simp only [List.map_cons, List.cons_append, List.nodup_cons, List.mem_append, not_or] at hn
    have hnotfound : (found.map (·.1)).contains k = false := by
      simpa using hn.1.2
    unfold readMembers
    simp only [hnext, hkey, ok_bind]
    cases hm : memberNamed members k with
    | none =>
      have hskip := hx.skipValue g (by omega)
      rw [normalizeFields, memberEntries_cons_of_none hm]
      simp only [hc, hskip, ok_bind]
      exact hs.members members found hfs hkfs hn.2 (by omega)
    | some m =>
      obtain ⟨p, s⟩ := m
      have hcost := cost_le_of_memberNamed hm
      rw [normalizeFields, memberEntries_cons_of_some hm]
      simp only [hnotfound, Bool.false_eq_true, ↓reduceIte, hc, ok_bind, List.mapM_cons, checkMember,
        bind_map, bind_assoc]
      refine (hs.value s hx (hk _ List.mem_cons_self) (by omega)).bind fun y => ?_
      have hn' : (fs.map Prod.fst ++ ((k, y) :: found).map Prod.fst).Nodup := by
        refine (List.perm_middle.nodup_iff).mpr ?_
        simp only [List.nodup_cons, List.mem_append, not_or]
        exact ⟨⟨hn.1.1, hn.1.2⟩, hn.2⟩
      have hrest := hs.members members ((k, y) :: found) hfs hkfs hn' (by omega)
      cases hl : (memberEntries members (normalizeFields fs)).mapM (checkMember ValueRules.json) with
      | error m => simp only [hl, error_bind] at hrest ⊢; exact hrest
      | ok ys =>
        simp only [hl, ok_bind, pure_eq_ok, List.reverse_cons, List.append_assoc,
          List.singleton_append] at hrest ⊢
        exact hrest

theorem places_step {d : Nat} {first : Bool} {cs rest : List Char} {xs : List Json} (name : String)
    (total : Nat) (members : Members) (i : Nat) (found : List (String × Json)) (f : Nat) (e : Mismatch)
    (h : SpellsItems d first cs xs rest) (hk : ∀ x ∈ xs, x.DistinctKeys)
    (hg : 2 * (cs.length - rest.length) + membersCost members + members.length + 1 ≤ g)
    (hf : 2 * Yaml.nodeCountItems (xs.map keyedDocument) + membersCost members + members.length + 1 ≤ f) :
    Agrees rest (readPlaces g d name total members i first found cs)
      (checkPlaces ValueRules.json f (positional name total) i members (xs.map keyedDocument) >>= fun l =>
        if members.length < xs.length then .error e else .ok (.obj (found.reverse ++ l))) := by
  obtain ⟨g, rfl⟩ : ∃ f, g = f + 1 := ⟨g - 1, by omega⟩
  obtain ⟨f, rfl⟩ : ∃ f', f = f' + 1 := ⟨f - 1, by omega⟩
  have hs := ih g (by omega)
  match members, h with
  | [], .done hn =>
    simp only [readPlaces, closeArray_of_done hn, checkPlaces, ok_bind, pure_eq_ok, List.length_nil, Nat.lt_irrefl, ↓reduceIte, List.append_nil, agrees_ok, and_self]
  | [], .more hn _ _ =>
    obtain ⟨err, herr⟩ := closeArray_of_more hn
    simp only [readPlaces, herr, error_bind, checkPlaces, ok_bind, List.length_nil, List.length_cons,
      Nat.zero_lt_succ, ↓reduceIte, agrees_error]
  | (member, presence, s) :: members, .done hn =>
    simp only [List.length_cons, membersCost, List.map_nil, Yaml.nodeCountItems] at hg hf
    unfold readPlaces
    simp only [hn, ok_bind, List.map_nil, checkPlaces]
    by_cases hp : presence = .defaulted
    · have hrest := hs.places name total members (i + 1) found f e (@SpellsItems.done d _ _ _ hn) hk (by omega)
        (by simp only [List.map_nil, Yaml.nodeCountItems]; omega)
      simp only [List.map_nil, List.length_nil, Nat.not_lt_zero, ↓reduceIte] at hrest
      simp only [hp, ↓reduceIte, List.length_nil, Nat.not_lt_zero]
      exact hrest
    · simp only [hp, ↓reduceIte, mismatchHere, error_bind, agrees_error]
  | (member, presence, s) :: members, @SpellsItems.more _ _ _ start r _ x xs hn hx hxs =>
    have h1 := length_of_nextItem_more hn
    have h2 := hx.length_lt
    have h3 := hxs.length_lt
    have hx0 := nodeCount_pos (keyedDocument x)
    simp only [List.length_cons, membersCost, List.map_cons, Yaml.nodeCountItems] at hg hf
    unfold readPlaces
    simp only [hn, ok_bind, List.map_cons, checkPlaces, bind_assoc, List.length_cons,
      Nat.add_lt_add_iff_right]
    rw [check_eq_checkFully (by omega)]
    refine (hs.value s hx (hk _ List.mem_cons_self) (by omega)).bind fun y => ?_
    have hrest := hs.places name total members (i + 1) ((member, y) :: found) f e hxs
      (fun x hx => hk x (List.mem_cons_of_mem _ hx)) (by omega) (by omega)
    cases hl : checkPlaces ValueRules.json f (positional name total) (i + 1) members (xs.map keyedDocument) with
    | error m => simp only [hl, error_bind] at hrest ⊢; exact hrest
    | ok ys =>
      simp only [hl, ok_bind, pure_eq_ok, List.reverse_cons, List.append_assoc,
        List.singleton_append] at hrest ⊢
      exact hrest

theorem tagged_step {d : Nat} {first : Bool} {cs rest : List Char} {fs : List (String × Json)}
    (tag : String) (kinds : List (String × Members)) (aside : List (String × Json)) (kind : Option String)
    (f : Nat) (h : SpellsFields d first cs fs rest) (hk : ∀ kv ∈ fs, kv.2.DistinctKeys)
    (hg : 2 * (cs.length - rest.length) + 2 * Yaml.nodeCountEntries (asDocumentFields aside) +
      kindsCost kinds + 1 ≤ g)
    (hf : 2 * Yaml.nodeCountEntries (asDocumentFields (normalizeFields fs)) +
        (2 * Yaml.nodeCountEntries (asDocumentFields aside) - aside.length) + kindsCost kinds + 1 ≤ f) :
    Agrees rest (readTagged g d tag kinds first (asDocumentFields aside) kind cs)
      (checkTagged ValueRules.json f tag kinds (asDocumentFields (normalizeFields fs)) (asDocumentFields aside)
        kind) := by
  obtain ⟨g, rfl⟩ : ∃ f, g = f + 1 := ⟨g - 1, by omega⟩
  obtain ⟨f, rfl⟩ : ∃ f', f = f' + 1 := ⟨f - 1, by omega⟩
  have hA := length_le_nodeCountEntries (asDocumentFields aside)
  rw [length_asDocumentFields] at hA
  cases h with
  | done hn =>
    simp only [normalizeFields, asDocumentFields, Yaml.nodeCountEntries] at hf
    unfold readTagged
    rcases kind with _ | k
    · simp only [hn, ok_bind, normalizeFields, asDocumentFields, checkTagged]
      exact Agrees.of_error (mismatchHere_error _ _) ⟨_, rfl⟩
    cases hl : kinds.lookup k with
    | none =>
      simp only [hn, ok_bind, normalizeFields, asDocumentFields, checkTagged, hl]
      exact Agrees.of_error (mismatchHere_error _ _) ⟨_, rfl⟩
    | some members =>
      simp only [hn, ok_bind, normalizeFields, asDocumentFields, checkTagged, hl]
      have hm := membersCost_le_of_lookup hl
      have hrev := nodeCountEntries_reverse (asDocumentFields aside)
      have hsame := @checkRecord_eq_of_le (ValueRules.content .json) members (asDocumentFields aside).reverse
        (g + 1) f (by rw [hrev, List.length_reverse, length_asDocumentFields]; omega)
        (by rw [hrev, List.length_reverse, length_asDocumentFields]; omega)
      simp only [hsame, ValueRules.json]
      cases checkRecord (ValueRules.content .json) f members (asDocumentFields aside).reverse with
      | error m => exact Agrees.of_error (mismatchHere_error _ _) ⟨_, rfl⟩
      | ok v => cases v <;> simp only [ok_bind, pure_eq_ok, agrees_ok, and_self]
  | @more _ _ _ start r r' r'' _ k x fs hn hkey hc hx hfs =>
    have h1 := length_of_nextKey_more hn
    have h2 := length_of_scanString hkey
    have h3 := length_of_colon hc
    have h4 := hx.length_lt
    have h5 := hfs.length_lt
    have hs := ih g (by omega)
    simp only [normalizeFields, asDocumentFields, Yaml.nodeCountEntries, Yaml.nodeCount] at hf
    simp only [normalizeFields, asDocumentFields]
    unfold readTagged
    simp only [hn, hkey, ok_bind]
    by_cases hkt : k = tag
    · subst hkt
      rcases kind with _ | t
      · simp only [Option.isSome_none, Bool.false_eq_true, ↓reduceIte, hc, ok_bind]
        by_cases hv : ∃ t, x = .str t
        · obtain ⟨t, rfl⟩ := hv
          obtain ⟨r0, hb, hs0⟩ : ∃ r0, skipBlanks r' = '"' :: r0 ∧ scanString r0 = .ok (t, r'') := by
            cases hx with
            | str hb hs0 => exact ⟨_, hb, hs0⟩
          simp only [hb, hs0, ok_bind, Json.normalize]
          by_cases hname : (kinds.map (·.1)).contains t = true
          · rw [checkTagged_cons_kind hname]
            simp only [hname, ↓reduceIte]
            exact hs.tagged k kinds aside (some t) f hfs (fun kv hkv => hk kv (List.mem_cons_of_mem _ hkv))
              (by omega) (by omega)
          · obtain ⟨m, hm⟩ := @checkTagged_cons_refused ValueRules.json f k kinds
              (asDocumentFields (normalizeFields fs)) (asDocumentFields aside) (Json.str t)
              (fun name hname' => by cases hname'; simpa using hname)
            rw [hm]
            simp only [hname, Bool.false_eq_true, ↓reduceIte]
            exact Agrees.of_error (mismatchHere_error _ _) ⟨_, rfl⟩
        · obtain ⟨c, r0, hb, hquote, -⟩ := hx.head
          have hc0 : c ≠ '"' := fun hc => hv (hquote hc)
          obtain ⟨m, hm⟩ := @checkTagged_cons_refused ValueRules.json f k kinds
            (asDocumentFields (normalizeFields fs)) (asDocumentFields aside) x.normalize
            (fun name hname => absurd ⟨name, normalize_eq_str hname⟩ hv)
          rw [hm, hb]
          split
          · next heq => exact absurd (List.cons.inj heq).1 hc0
          · next heq => simp at heq
          · exact agrees_wrongKind _ _ _
      · simp only [↓reduceIte, Option.isSome_some]
        rw [checkTagged_cons_duplicate rfl]
        exact Agrees.of_error (mismatchHere_error _ _) ⟨_, rfl⟩
    · rw [checkTagged_cons_aside hkt]
      have hx0 : x.normalize.asDocument.nodeCount + r''.length ≤ r'.length := by
        rw [nodeCount_normalize (hk _ List.mem_cons_self)]
        exact hx.nodeCount_le
      simp only [hkt, ↓reduceIte, hc, ok_bind, hx.readAny g (by omega)]
      exact hs.tagged tag kinds ((k, x.normalize) :: aside) kind f hfs
        (fun kv hkv => hk kv (List.mem_cons_of_mem _ hkv))
        (by simp only [asDocumentFields, Yaml.nodeCountEntries, Yaml.nodeCount]; omega)
        (by simp only [asDocumentFields, Yaml.nodeCountEntries, Yaml.nodeCount, List.length_cons]; omega)

/-- A list is read item by item, as the check takes the keyed items. -/
theorem list_step {d : Nat} {cs rest : List Char} {xs : List Json} (s : Schema)
    (h : Spells d cs (.arr xs) rest) (hk : (Json.arr xs).DistinctKeys)
    (hg : 2 * (cs.length - rest.length) + (Schema.list s).cost + 1 ≤ g) :
    Agrees rest (readAs g d (.list s) cs) (checkFully ValueRules.json (.list s) (keyedDocument (.arr xs))) := by
  obtain ⟨g, rfl⟩ : ∃ f, g = f + 1 := ⟨g - 1, by omega⟩
  obtain ⟨r, hb, hd, hitems⟩ := h.arr_inv
  cases hk with
  | arr hks =>
  have hr : r.length < cs.length := by
    have := length_skipBlanks_le cs
    rw [hb, List.length_cons] at this
    omega
  have hread := (ih g (by omega)).items s [] hitems hks (by simp only [cost] at hg; omega)
  rw [List.reverse_nil, map_nil_append] at hread
  rw [keyedDocument_arr, ← (check_eq_checkFully (by simp only [Yaml.nodeCount, cost]; omega) :
    check ValueRules.json (2 * Yaml.nodeCountItems (xs.map keyedDocument) + s.cost + 2 + 1) _ _ = _)]
  unfold readAs
  simp only [hb, Nat.not_le.mpr hd, ↓reduceIte, Schema.check]
  rw [checkItems_eq_mapM (by omega)]
  exact hread.map Json.arr

/-- A dictionary is read entry by entry, in the order written, and the check
takes the keyed entries in order of name: with no name twice, they agree. -/
theorem dictionary_step {d : Nat} {cs rest : List Char} {fs : List (String × Json)} (s : Schema)
    (h : Spells d cs (.obj fs) rest) (hk : (Json.obj fs).DistinctKeys)
    (hg : 2 * (cs.length - rest.length) + (Schema.dictionary s).cost + 1 ≤ g) :
    Agrees rest (readAs g d (.dictionary s) cs)
      (checkFully ValueRules.json (.dictionary s) (keyedDocument (.obj fs))) := by
  obtain ⟨g, rfl⟩ : ∃ f, g = f + 1 := ⟨g - 1, by omega⟩
  obtain ⟨r, hb, hd, hfields⟩ := h.obj_inv
  cases hk with
  | obj hn hks =>
  have hr : r.length < cs.length := by
    have := length_skipBlanks_le cs
    rw [hb, List.length_cons] at this
    omega
  have hn' : ((normalizeFields fs).map Prod.fst).Nodup := by rwa [map_fst_normalizeFields]
  have hperm := sortFields_perm hn'
  have hread := (ih g (by omega)).entries s [] hfields hks (by simp only [cost] at hg; omega)
  rw [List.reverse_nil, map_nil_append] at hread
  rw [keyedDocument_obj, ← (check_eq_checkFully
    (by simp only [Yaml.nodeCount, cost, nodeCountEntries_perm hperm]; omega) :
    check ValueRules.json (2 * Yaml.nodeCountEntries (asDocumentFields (normalizeFields fs)) + s.cost + 2 + 1)
      _ _ = _)]
  unfold readAs
  simp only [hb, Nat.not_le.mpr hd, ↓reduceIte, Schema.check]
  refine Agrees.of_sameAnswer ?_ (checkDictionary_perm hperm.symm hn' (by omega))
  rw [checkDictionary_eq_mapM (by omega)]
  exact hread.map fun fs => (Json.obj fs).normalize

/-- A record written as an array takes its members by place. -/
theorem recordArray_step {d : Nat} {cs rest : List Char} {xs : List Json} (name : String) (members : Members)
    (h : Spells d cs (.arr xs) rest) (hk : (Json.arr xs).DistinctKeys)
    (hg : 2 * (cs.length - rest.length) + (Schema.record name members).cost + 1 ≤ g) :
    Agrees rest (readAs g d (.record name members) cs)
      (checkFully ValueRules.json (.record name members) (keyedDocument (.arr xs))) := by
  obtain ⟨g, rfl⟩ : ∃ f, g = f + 1 := ⟨g - 1, by omega⟩
  obtain ⟨r, hb, hd, hitems⟩ := h.arr_inv
  cases hk with
  | arr hks =>
  have hr : r.length < cs.length := by
    have := length_skipBlanks_le cs
    rw [hb, List.length_cons] at this
    omega
  have hread := (ih g (by omega)).places name members.length members 0 []
    (2 * Yaml.nodeCountItems (xs.map keyedDocument) + membersCost members + members.length + 1)
    (.invalidLength (xs.map keyedDocument).length (ValueRules.json.fewerItems members.length)) hitems hks
    (by simp only [cost] at hg; omega) (Nat.le_refl _)
  simp only [List.reverse_nil, List.nil_append, List.length_map] at hread
  rw [keyedDocument_arr, ← (check_eq_checkFully (by simp only [Yaml.nodeCount, cost]; omega) :
    check ValueRules.json
      (2 * Yaml.nodeCountItems (xs.map keyedDocument) + membersCost members + members.length + 1 + 1 + 1)
      _ _ = _)]
  have hseq : ValueRules.json.recordFromSequence = true := rfl
  unfold readAs
  simp only [hb, Nat.not_le.mpr hd, ↓reduceIte, Schema.check, hseq, checkPositional, List.length_map]
  exact hread

/-- A record written as an object takes its members by name, whatever their
order: with no name twice, the reader and the check of the keyed entries agree. -/
theorem recordObject_step {d : Nat} {cs rest : List Char} {fs : List (String × Json)} (name : String)
    (members : Members) (h : Spells d cs (.obj fs) rest) (hk : (Json.obj fs).DistinctKeys)
    (hg : 2 * (cs.length - rest.length) + (Schema.record name members).cost + 1 ≤ g) :
    Agrees rest (readAs g d (.record name members) cs)
      (checkFully ValueRules.json (.record name members) (keyedDocument (.obj fs))) := by
  obtain ⟨g, rfl⟩ : ∃ f, g = f + 1 := ⟨g - 1, by omega⟩
  obtain ⟨r, hb, hd, hfields⟩ := h.obj_inv
  cases hk with
  | obj hn hks =>
  have hr : r.length < cs.length := by
    have := length_skipBlanks_le cs
    rw [hb, List.length_cons] at this
    omega
  have hn' : ((normalizeFields fs).map Prod.fst).Nodup := by rwa [map_fst_normalizeFields]
  have hperm := sortFields_perm hn'
  have hA := length_le_nodeCountEntries (asDocumentFields (normalizeFields fs))
  rw [length_asDocumentFields] at hA
  have hread := (ih g (by omega)).members members [] hfields hks (by simpa using hn)
    (by simp only [cost] at hg; omega)
  rw [keyedDocument_obj, ← (check_eq_checkFully
    (by simp only [Yaml.nodeCount, cost, nodeCountEntries_perm hperm]; omega) :
    check ValueRules.json
      (2 * Yaml.nodeCountEntries (asDocumentFields (normalizeFields fs)) + membersCost members +
        members.length + 1 + 1 + 1) _ _ = _)]
  unfold readAs
  simp only [hb, Nat.not_le.mpr hd, ↓reduceIte, Schema.check]
  refine Agrees.of_sameAnswer ?_ (checkRecord_perm hperm.symm hn' (by omega))
  rw [checkRecord_succ, checkMembers_eq_mapM hn' (by simp) (by omega)]
  cases hm : (memberEntries members (normalizeFields fs)).mapM (checkMember ValueRules.json) with
  | error m => simp only [hm, error_bind] at hread ⊢; exact hread
  | ok found =>
    have hnodup : (found.map Prod.fst).Nodup :=
      map_fst_of_checkMembers hm ▸ (map_fst_memberEntries_sublist members _).nodup hn'
    simp only [hm, ok_bind, List.append_nil] at hread ⊢
    rwa [closeRecord_perm members (List.reverse_perm found) (by rw [List.map_reverse]; exact (List.reverse_perm _).nodup_iff.mpr hnodup)]
      at hread

/-- A tagged record written as an object: the tag may stand anywhere among the
members; the reader sets aside what stands before it, as the check of the keyed
entries does, and with no name twice the order does not matter. -/
theorem taggedObject_step {d : Nat} {cs rest : List Char} {fs : List (String × Json)} (name tag : String)
    (kinds : List (String × Members)) (h : Spells d cs (.obj fs) rest) (hk : (Json.obj fs).DistinctKeys)
    (hg : 2 * (cs.length - rest.length) + (Schema.tagged name tag kinds).cost + 1 ≤ g) :
    Agrees rest (readAs g d (.tagged name tag kinds) cs)
      (checkFully ValueRules.json (.tagged name tag kinds) (keyedDocument (.obj fs))) := by
  obtain ⟨g, rfl⟩ : ∃ f, g = f + 1 := ⟨g - 1, by omega⟩
  obtain ⟨r, hb, hd, hfields⟩ := h.obj_inv
  cases hk with
  | obj hn hks =>
  have hr : r.length < cs.length := by
    have := length_skipBlanks_le cs
    rw [hb, List.length_cons] at this
    omega
  have hn' : ((normalizeFields fs).map Prod.fst).Nodup := by rwa [map_fst_normalizeFields]
  have hperm := sortFields_perm hn'
  have hread := (ih g (by omega)).tagged tag kinds [] none
    (2 * Yaml.nodeCountEntries (asDocumentFields (normalizeFields fs)) + kindsCost kinds + 1 + 1) hfields hks
    (by simp only [cost] at hg; simp only [asDocumentFields, Yaml.nodeCountEntries]; omega)
    (by simp only [asDocumentFields, Yaml.nodeCountEntries, List.length_nil]; omega)
  rw [keyedDocument_obj, ← (check_eq_checkFully
    (by simp only [Yaml.nodeCount, cost, nodeCountEntries_perm hperm]; omega) :
    check ValueRules.json
      (2 * Yaml.nodeCountEntries (asDocumentFields (normalizeFields fs)) + kindsCost kinds + 1 + 1 + 1) _ _ =
        _)]
  unfold readAs
  simp only [hb, Nat.not_le.mpr hd, ↓reduceIte, Schema.check]
  exact hread.of_sameAnswer (@checkTagged_perm ValueRules.json tag kinds _ _ hperm.symm [] none _
    (by simpa using hn') (by simp only [asDocumentFields, Yaml.nodeCountEntries, List.length_nil]; omega))

/-- One value read against any schema agrees with the check of its keyed view. -/
theorem value_step {d : Nat} {cs rest : List Char} {v : Json} (s : Schema) (h : Spells d cs v rest)
    (hk : v.DistinctKeys) (hg : 2 * (cs.length - rest.length) + s.cost + 1 ≤ g) :
    Agrees rest (readAs g d s cs) (checkFully ValueRules.json s (keyedDocument v)) := by
  obtain ⟨g, rfl⟩ : ∃ f, g = f + 1 := ⟨g - 1, by omega⟩
  cases s
  case anything => exact agrees_anything h hg
  all_goals cases v
  all_goals try
    (rw [checkFully_eq_succ]; cases h <;> unfold readAs <;>
      simp only [*, -String.reduceToList, Char.reduceEq, List.cons.injEq, false_and, imp_self, implies_true,
        Schema.check, ValueRules.json, Bool.false_eq_true, ↓reduceIte, Char.reduceIsDigit,
        Json.normalize, Json.asDocument, agrees_wrongKind, agrees_ok, agrees_error, flawAhead, ok_bind,
        pure_eq_ok, and_self, eq_false_of_isDigit, agrees_unsignedValue, keyedDocument]; done)
  case optional.bool | optional.num | optional.str | optional.arr | optional.obj =>
    exact agrees_optional (fun s {_} h' hg' => (ih g (by omega)).value s h' hk hg') h (by simp) hg
  case choice.str => exact agrees_choice _ _ h
  case choice.obj => exact agrees_choiceMap _ _ h hk
  case parsed.str => exact agrees_parsed _ _ h
  case list.arr => exact list_step ih _ h hk hg
  case dictionary.obj => exact dictionary_step ih _ h hk hg
  case record.arr => exact recordArray_step ih _ _ h hk hg
  case record.obj => exact recordObject_step ih _ _ h hk hg
  case tagged.arr => exact agrees_taggedItems _ _ _ h hk hg
  case tagged.obj => exact taggedObject_step ih _ _ _ h hk hg

end Steps

/-- At every fuel the typed reader agrees with the check of the keyed view. -/
theorem reads (g : Nat) : ReadsAt g := by
  induction g using Nat.strongRecOn with
  | ind g ih =>
    exact ⟨value_step ih, items_step ih, entries_step ih, members_step ih, places_step ih, tagged_step ih⟩

/-- A whole text read against a schema with the typed reader gives what the check
of its keyed view gives, when the text spells a value with no name twice in an
object, followed by blanks only. -/
theorem readText_eq_checkValue {s : Schema} {text : String} {v : Json} {rest : List Char}
    (h : Spells 0 text.toList v rest) (hblank : skipBlanks rest = []) (hk : v.DistinctKeys) (hs : s.cost ≤ 63)
    (w : Json) :
    s.readText text = .ok w ↔ Schema.checkValue ValueRules.json s (keyedDocument v) = .ok w := by
  have hlen := h.length_lt
  have hagree := (reads (2 * text.toList.length + 64)).value s h hk (by omega)
  rw [Schema.checkValue, check_eq_checkFully (by omega)]
  unfold Schema.readText
  cases hr : readAs (2 * text.toList.length + 64) 0 s text.toList with
  | error e =>
    rw [hr] at hagree
    cases hc : checkFully ValueRules.json s (keyedDocument v) with
    | error m => simp only [hr, error_bind, reduceCtorEq]
    | ok w' => rw [hc] at hagree; exact hagree.elim
  | ok p =>
    obtain ⟨w', r⟩ := p
    rw [hr] at hagree
    cases hc : checkFully ValueRules.json s (keyedDocument v) with
    | error m => rw [hc] at hagree; exact hagree.elim
    | ok w'' =>
      rw [hc] at hagree
      obtain ⟨rfl, rfl⟩ := hagree
      simp only [hr, ok_bind, hblank, pure_eq_ok, Except.ok.injEq]

end JsonText

end DenyPolicy
