import DenyPolicy.Proofs.ManifestRoundTrip
/-!
# Values of any shape read back

A member that takes any value, as an audit event's metadata does, is read by a
reader that learns the value's shape from its first character, keeps integers
of 64 bits as integers, sorts the members of every object it reads by name, and
goes no deeper than `maxDepth` arrays and objects.  A value comes back as
written when it is *keyed* (`Json.Keyed`): its numbers are integers within the
reader's range, every object has its members sorted by name with no name twice,
and it nests no deeper than the room left (`JsonText.readsBack_anything`).

Sorting is the one step that could change a value, and on a keyed object it
changes nothing (`Json.normalize_of_keyed`), as on the sorted maps of a
manifest.

The limit on nesting is a refusal, not a cut: arrays nested up to depth
`maxDepth` are refused whatever the fuel (`JsonText.readAny_nestedArrays_refused`),
and a record with a refused member is refused (`JsonText.readAs_record_refused`),
so a value one level too deep spoils the whole document it sits in.
-/

namespace DenyPolicy

namespace Json

/-- A value that the reader of any shape gives back as written, within `room`
more levels of arrays and objects: integers of 64 bits and no floating values,
and objects sorted by member name with no name twice. -/
inductive Keyed : Nat → Json → Prop
  | null {room : Nat} : Keyed room .null
  | bool {room : Nat} (b : Bool) : Keyed room (.bool b)
  | nat {room n : Nat} : n ≤ u64Max → Keyed room (.num (.nat n))
  | negInt {room n : Nat} : 0 < n → n ≤ Nat.pow 2 63 → Keyed room (.num (.negInt n))
  | str {room : Nat} (s : String) : Keyed room (.str s)
  | arr {room : Nat} {xs : List Json} : (∀ x ∈ xs, Keyed room x) → Keyed (room + 1) (.arr xs)
  | obj {room : Nat} {fs : List (String × Json)} : (fs.map Prod.fst).Pairwise (· < ·) →
      (∀ kv ∈ fs, Keyed room kv.2) → Keyed (room + 1) (.obj fs)

theorem normalizeItems_of_forall {xs : List Json} (h : ∀ x ∈ xs, x.normalize = x) :
    normalizeItems xs = xs := by
  induction xs with
  | nil => rfl
  | cons x xs ih =>
    rw [normalizeItems, h x List.mem_cons_self, ih fun y hy => h y (List.mem_cons_of_mem _ hy)]

theorem normalize_of_keyed {room : Nat} {v : Json} (h : Keyed room v) : v.normalize = v := by
  induction h with
  | null | bool | nat | negInt | str => rfl
  | arr _ ih => rw [normalize, normalizeItems_of_forall ih]
  | obj hsorted _ ih => exact normalize_obj_of_sorted (List.pairwise_map.mp hsorted) ih

def nestedArrays : Nat → Json
  | 0 => .null
  | n + 1 => .arr [nestedArrays n]

end Json

namespace JsonText

open Json

theorem readAs_anything {fuel depth : Nat} {c : Char} (hc : isBlank c = false) (cs : List Char) :
    readAs (fuel + 1) depth .anything (c :: cs) = readAny fuel depth (c :: cs) := by
  unfold readAs
  rw [skipBlanks_nonblank hc]
  simp

/-- The first digit of a number opens no other kind of value, and is no blank. -/
theorem digit_opens_number {c : Char} (h : c.isDigit = true) :
    c ≠ 'n' ∧ c ≠ 't' ∧ c ≠ 'f' ∧ c ≠ '-' ∧ c ≠ '"' ∧ c ≠ '[' ∧ c ≠ '\x7b' ∧ isBlank c = false := by
  have hrange : 48 ≤ c.toNat ∧ c.toNat ≤ 57 := by
    simpa [Char.isDigit, UInt32.le_iff_toNat_le] using h
  have hne : ∀ d : Char, d.toNat < 48 ∨ 57 < d.toNat → c ≠ d := fun d hd hcd => by
    subst hcd
    omega
  refine ⟨hne 'n' (by decide), hne 't' (by decide), hne 'f' (by decide), hne '-' (by decide),
    hne '"' (by decide), hne '[' (by decide), hne '\x7b' (by decide), ?_⟩
  simp only [isBlank, Bool.or_eq_false_iff, decide_eq_false_iff_not]
  exact ⟨⟨⟨hne ' ' (by decide), hne '\n' (by decide)⟩, hne '\t' (by decide)⟩, hne '\r' (by decide)⟩

-- The facts that a digit is none of the characters that open other values
-- decide the reader's match on the first character; the linter does not see
-- them used.
set_option linter.unusedSimpArgs false in
/-- Every keyed value is read back by the reader of any shape, from any layout,
as long as it nests no deeper than the reader still allows. -/
theorem readsBack_anything {room : Nat} {v : Json} (h : Keyed room v) :
    ∀ {depth : Nat}, depth + room ≤ maxDepth → ReadsBack .anything depth v := by
  induction h with
  | null =>
    intro depth _ l indent fuel rest hfuel _
    obtain ⟨fuel, rfl⟩ : ∃ f, fuel = f + 2 := ⟨fuel - 2, by simp [weight] at hfuel; omega⟩
    have htext : layout l indent .null ++ rest = 'n' :: ("ull".toList ++ rest) := rfl
    rw [htext, readAs_anything (by decide)]
    simp [readAny, ident, skipBlanks, isBlank]
  | bool b =>
    intro depth _ l indent fuel rest hfuel _
    obtain ⟨fuel, rfl⟩ : ∃ f, fuel = f + 2 := ⟨fuel - 2, by simp [weight] at hfuel; omega⟩
    cases b with
    | true =>
      have htext : layout l indent (.bool true) ++ rest = 't' :: ("rue".toList ++ rest) := rfl
      rw [htext, readAs_anything (by decide)]
      simp [readAny, ident, skipBlanks, isBlank]
    | false =>
      have htext : layout l indent (.bool false) ++ rest = 'f' :: ("alse".toList ++ rest) := rfl
      rw [htext, readAs_anything (by decide)]
      simp [readAny, ident, skipBlanks, isBlank]
  | @nat _ n hn =>
    intro depth _ l indent fuel rest hfuel hrest
    obtain ⟨fuel, rfl⟩ : ∃ f, fuel = f + 2 := ⟨fuel - 2, by simp [weight] at hfuel; omega⟩
    have hscan := scanNumber_toString hn hrest
    obtain ⟨c, cs, htext, -⟩ := layout_opens l indent (.num (.nat n))
    change (toString n).toList = c :: cs at htext
    have hdigit : c.isDigit = true :=
      Nat.isDigit_of_mem_toDigits (by decide) (by decide) (Nat.toList_repr ▸ htext ▸ List.mem_cons_self)
    obtain ⟨hn', ht, hf, hminus, hquote, hbracket, hbrace, hblank⟩ := digit_opens_number hdigit
    change readAs (fuel + 2) depth .anything ((toString n).toList ++ rest) = _
    rw [htext, List.cons_append, readAs_anything hblank]
    rw [htext, List.cons_append] at hscan
    unfold readAny
    rw [skipBlanks_nonblank hblank]
    simp only [hn', ht, hf, hminus, hquote, hbracket, hbrace, hdigit, hscan, if_true, ok_bind]
    rfl
  | @negInt _ n hpos hn =>
    intro depth _ l indent fuel rest hfuel hrest
    obtain ⟨fuel, rfl⟩ : ∃ f, fuel = f + 2 := ⟨fuel - 2, by simp [weight] at hfuel; omega⟩
    have htext : layout l indent (.num (.negInt n)) ++ rest = '-' :: ((toString n).toList ++ rest) := by
      simp [layout, Numeral.render]
    have hscan := scanNumber_negative hpos hn hrest
    rw [show (toString n).toList = Nat.toDigits 10 n from Nat.toList_repr] at hscan
    rw [htext, readAs_anything (by decide)]
    simp [readAny, skipBlanks, isBlank, hscan]
  | str s =>
    intro depth _ l indent fuel rest hfuel _
    obtain ⟨fuel, rfl⟩ : ∃ f, fuel = f + 2 := ⟨fuel - 2, by simp [weight] at hfuel; omega⟩
    simp only [layout]
    rw [toList_quote, List.cons_append, readAs_anything (by decide)]
    simp [readAny, skipBlanks, isBlank, scanString_escaped]
  | @arr room xs _ ih =>
    intro depth hdepth l indent fuel rest hfuel _
    obtain ⟨fuel, rfl⟩ : ∃ f, fuel = f + 2 := ⟨fuel - 2, by simp [weight] at hfuel; omega⟩
    simp only [weight] at hfuel
    obtain ⟨bs, hbs, htext⟩ := layout_arr l indent xs rest
    have hitems := readItems_layout (fun x hx => @ih x hx (depth + 1) (by omega)) l (indent + 1) hbs rest true []
      fuel (by omega)
    rw [htext, readAs_anything (by decide)]
    simp [readAny, skipBlanks, isBlank, show ¬ maxDepth ≤ depth by omega, hitems]
  | @obj room fs hsorted hfs ih =>
    intro depth hdepth l indent fuel rest hfuel _
    obtain ⟨fuel, rfl⟩ : ∃ f, fuel = f + 2 := ⟨fuel - 2, by simp [weight] at hfuel; omega⟩
    simp only [weight] at hfuel
    obtain ⟨bs, hbs, htext⟩ := layout_obj l indent fs rest
    have hentries := readEntries_layout (fun kv hkv => @ih kv hkv (depth + 1) (by omega)) l (indent + 1) hbs rest
      true [] fuel (by omega)
    have hnormal := normalize_of_keyed (Keyed.obj hsorted hfs)
    rw [htext, readAs_anything (by decide)]
    simp [readAny, skipBlanks, isBlank, show ¬ maxDepth ≤ depth by omega, hentries, hnormal]

/-! ## Values nested too deep -/

/-- An array of one item is read by reading its item one level deeper; a
refusal there refuses the array. -/
theorem readAny_single_refused {l : Layout} {indent depth : Nat} {x : Json}
    (hx : depth < maxDepth →
      ∀ fuel more, ∃ f, readAs fuel (depth + 1) .anything (layout l (indent + 1) x ++ more) = .error f)
    (fuel : Nat) (rest : List Char) :
    ∃ f, readAny fuel depth (layout l indent (.arr [x]) ++ rest) = .error f := by
  have htext : layout l indent (.arr [x]) ++ rest =
      '[' :: ([] ++ (l.lineBreak (indent + 1) ++ (layout l (indent + 1) x ++ (l.lineBreak indent ++ ']' :: rest)))) := by
    simp [layout, layoutItems]
  rw [htext]
  cases fuel with
  | zero => exact ⟨_, by rw [readAny]; rfl⟩
  | succ fuel =>
    unfold readAny
    rw [skipBlanks_nonblank (by decide)]
    simp only
    split
    · exact ⟨_, rfl⟩
    · rename_i hdepth
      cases fuel with
      | zero => exact ⟨_, by rw [readItems]; rfl⟩
      | succ fuel =>
        obtain ⟨f, hf⟩ := hx (by omega) fuel (l.lineBreak indent ++ ']' :: rest)
        rw [readItems]
        have hnext := nextItem_layout l (indent + 1) true x (l.lineBreak indent ++ ']' :: rest)
        simp only [if_true, List.nil_append] at hnext
        simp [hnext, hf]

theorem readAs_anything_refused {l : Layout} {indent depth : Nat} {x : Json} {more : List Char}
    (hx : ∀ fuel, ∃ f, readAny fuel depth (layout l indent x ++ more) = .error f) (fuel : Nat) :
    ∃ f, readAs fuel depth .anything (layout l indent x ++ more) = .error f := by
  obtain ⟨c, cs, hcs, hc⟩ := layout_opens l indent x
  cases fuel with
  | zero => exact ⟨_, by rw [readAs]; rfl⟩
  | succ fuel =>
    rw [hcs, List.cons_append, readAs_anything hc.1, ← List.cons_append, ← hcs]
    exact hx fuel

/-- Arrays nested past the reader's limit are refused whatever the fuel: the
array that would stand at depth `maxDepth` is. -/
theorem readAny_nestedArrays_refused (l : Layout) (n : Nat) :
    ∀ {depth : Nat}, maxDepth ≤ depth + n → ∀ (indent fuel : Nat) (rest : List Char),
      ∃ f, readAny fuel depth (layout l indent (nestedArrays (n + 1)) ++ rest) = .error f := by
  induction n with
  | zero =>
    intro depth hdepth indent fuel rest
    exact readAny_single_refused (fun h => absurd hdepth (by omega)) fuel rest
  | succ n ih =>
    intro depth hdepth indent fuel rest
    exact readAny_single_refused
      (fun _ fuel more => readAs_anything_refused (fun fuel => ih (by omega) (indent + 1) fuel more) fuel) fuel rest

theorem ends_layoutFields_append (l : Layout) (indent : Nat) (todo : List (String × Json)) (kv : String × Json)
    (post : List (String × Json)) (tail : List Char) :
    Ends (layoutFields l indent false (todo ++ kv :: post) ++ tail) := by
  obtain ⟨kv', fs, hfs⟩ : ∃ kv' fs, todo ++ kv :: post = kv' :: fs := List.exists_cons_of_ne_nil (by simp)
  obtain ⟨k', v'⟩ := kv'
  rw [hfs]
  simpa [layoutFields, List.append_assoc] using ends_comma _

/-- The members of a record are read one after another up to a member whose
value is refused, and that refusal refuses the record; a member that is read
twice is refused on its own. -/
theorem readMembers_refused {depth : Nat} {members : Members} {k : String} {v : Json} {p : Presence}
    {s : Schema} (l : Layout) (indent : Nat) (hk : Schema.memberNamed members k = some (p, s))
    (hv : ∀ fuel more, ∃ f, readAs fuel depth s (layout l indent v ++ more) = .error f)
    (post : List (String × Json)) (tail : List Char) :
    ∀ (todo : List (String × Json)) (first : Bool) (found : List (String × Json)) (fuel : Nat),
      (∀ kv ∈ todo, ∃ p s, Schema.memberNamed members kv.1 = some (p, s) ∧ ReadsBack s depth kv.2) →
      weightFields todo < fuel →
      ∃ f, readMembers fuel depth members first found (layoutFields l indent first (todo ++ (k, v) :: post) ++ tail) =
        .error f := by
  intro todo
  induction todo with
  | nil =>
    intro first found fuel _ _
    obtain ⟨fuel, rfl⟩ : ∃ f, fuel = f + 1 := ⟨fuel - 1, by simp [weightFields] at *; omega⟩
    simp only [List.nil_append, layoutFields, List.append_assoc, List.cons_append]
    rw [readMembers, nextKey_layout]
    simp only [ok_bind]
    rw [scanString_escaped]
    simp only [ok_bind, hk]
    split
    · exact ⟨_, rfl⟩
    · cases fuel with
      | zero => simp [colon_gap, readAs, flawHere]
      | succ fuel =>
        obtain ⟨f, hf⟩ := hv (fuel + 1) (layoutFields l indent false post ++ tail)
        simp [colon_gap, readAs_blanks l.blank_gap, hf]
  | cons kv todo ih =>
    obtain ⟨k', v'⟩ := kv
    intro first found fuel htodo hfuel
    simp only [weightFields] at hfuel
    have hweight := two_le_weight v'
    obtain ⟨fuel, rfl⟩ : ∃ f, fuel = f + 2 := ⟨fuel - 2, by omega⟩
    obtain ⟨p', s', hnamed, hread⟩ := htodo (k', v') List.mem_cons_self
    have hv' := hread l indent (fuel + 1) _ (by dsimp only; omega)
      (ends_layoutFields_append l indent todo (k, v) post tail)
    obtain ⟨f, hf⟩ := ih false ((k', v') :: found) (fuel + 1)
      (fun kv hkv => htodo kv (List.mem_cons_of_mem _ hkv)) (by omega)
    simp only [List.cons_append, layoutFields, List.append_assoc]
    rw [readMembers, nextKey_layout]
    simp only [ok_bind]
    rw [scanString_escaped]
    simp only [ok_bind, hnamed]
    split
    · exact ⟨_, rfl⟩
    · refine ⟨f, ?_⟩
      simp [colon_gap, readAs_blanks l.blank_gap, hv', hf]

theorem weightFields_append (xs ys : List (String × Json)) :
    weightFields (xs ++ ys) = weightFields xs + weightFields ys := by
  induction xs with
  | nil => simp [weightFields]
  | cons kv xs ih =>
    obtain ⟨k, x⟩ := kv
    simp only [List.cons_append, weightFields, ih]
    omega

/-- A record with a member whose value is refused, after members that the
record reads back, is refused. -/
theorem readAs_record_refused {depth : Nat} {name : String} {members : Members} {pre post : List (String × Json)}
    {k : String} {v : Json} {p : Presence} {s : Schema} (l : Layout) (indent : Nat)
    (hpre : ∀ kv ∈ pre, ∃ p s, Schema.memberNamed members kv.1 = some (p, s) ∧ ReadsBack s (depth + 1) kv.2)
    (hk : Schema.memberNamed members k = some (p, s))
    (hv : ∀ fuel more, ∃ f, readAs fuel (depth + 1) s (layout l (indent + 1) v ++ more) = .error f)
    {fuel : Nat} (hfuel : (Json.obj (pre ++ (k, v) :: post)).weight < fuel) (rest : List Char) :
    ∃ f, readAs fuel depth (.record name members) (layout l indent (.obj (pre ++ (k, v) :: post)) ++ rest) =
      .error f := by
  obtain ⟨kv, fs, hfs⟩ : ∃ kv fs, pre ++ (k, v) :: post = kv :: fs := List.exists_cons_of_ne_nil (by simp)
  have htext : layout l indent (.obj (pre ++ (k, v) :: post)) ++ rest =
      '\x7b' :: (layoutFields l (indent + 1) true (pre ++ (k, v) :: post) ++ (l.lineBreak indent ++ '\x7d' :: rest)) := by
    rw [hfs]
    simp [layout]
  simp only [weight, weightFields_append] at hfuel
  obtain ⟨fuel, rfl⟩ : ∃ f, fuel = f + 1 := ⟨fuel - 1, by omega⟩
  rw [htext]
  unfold readAs
  rw [skipBlanks_nonblank (by decide)]
  simp only
  split
  · exact ⟨_, rfl⟩
  · exact readMembers_refused l (indent + 1) hk hv post _ pre true [] fuel hpre (by omega)

end JsonText

end DenyPolicy
