import DenyPolicy.Proofs.KeyedView
/-!
# The grammar of JSON documents

`JsonText.Spells depth cs v rest` says that the text `cs` spells the value `v`,
with its members in the order written, and that `rest` follows it.  The tokens
are the readers' own: literals, numbers and strings as the reader of any value
scans them, and the blanks, commas, colons and brackets between them as the
readers find them; arrays and objects nest at most `maxDepth` deep.  A text
that spells a value is one the reader of any value accepts.

What the grammar spells, two readers agree on:

* the skipper, which passes over members a record does not know, reaches the
  end of the value (`JsonText.Spells.skipValue`), though it checks less: a
  number's digits and not its range, a string's escapes and not what they name;
* the reader of any value reads the keyed view of the value
  (`JsonText.Spells.readAny`).

Both are given two steps of fuel for each character they take.  The value has
no more nodes than characters (`JsonText.Spells.nodeCount_le`), which bounds the
fuel a check of it needs.
-/

namespace DenyPolicy

namespace JsonText

/-! ## Blanks and numbers -/

theorem skipBlanks_skipBlanks (cs : List Char) : skipBlanks (skipBlanks cs) = skipBlanks cs := by
  induction cs with
  | nil => rfl
  | cons c cs ih =>
    by_cases hc : isBlank c = true
    · simpa [skipBlanks, hc] using ih
    · simp [skipBlanks, hc]

/-- The integer digits of a number are skipped to where they are read to. -/
theorem skipNumber_of_scanWhole {cs whole rest : List Char} (h : scanWhole cs = .ok (whole, rest)) :
    skipNumber cs = skipFraction rest := by
  unfold scanWhole at h
  split at h
  · simp [flawHere] at h
  · next r =>
    split at h
    · next d t =>
      split at h
      · simp [flawAhead] at h
      · next hd =>
        simp only [pure, Except.pure, Except.ok.injEq, Prod.mk.injEq] at h
        obtain ⟨-, rfl⟩ := h
        simp [skipNumber, hd]
    · simp only [pure, Except.pure, Except.ok.injEq, Prod.mk.injEq] at h
      obtain ⟨-, rfl⟩ := h
      simp [skipNumber, skipFraction]
  · next c r hc =>
    split at h
    · next hr =>
      simp only [pure, Except.pure, Except.ok.injEq, Prod.mk.injEq] at h
      obtain ⟨-, rfl⟩ := h
      unfold skipNumber
      split
      · next heq => exact absurd (List.cons.inj heq).1 hc
      · next heq =>
        obtain ⟨rfl, rfl⟩ := List.cons.inj heq
        rw [if_pos hr]
      · simp at *
    · simp [flawHere] at h

theorem drop_length_takeWhile (p : Char → Bool) (l : List Char) :
    l.drop (l.takeWhile p).length = l.dropWhile p := by
  induction l with
  | nil => rfl
  | cons c l ih => by_cases hc : p c <;> simp [hc, ih]

theorem skipExponent_of_scanExponent {e : Char} {t rest : List Char} {exp : Option (Bool × List Char)}
    (h : scanExponent (e :: t) = .ok (exp, rest)) (he : e = 'e' ∨ e = 'E') :
    skipExponent (e :: t) = .ok rest := by
  dsimp only [scanExponent] at h
  rw [if_pos he] at h
  unfold skipExponent
  rw [List.drop_one, List.tail_cons]
  split
  · next m =>
    dsimp only at h ⊢
    rcases m with _ | ⟨c, after⟩
    · simp [flawHere] at h
    · by_cases hc : c.isDigit <;> simp_all [flawHere, drop_length_takeWhile]
  · next m =>
    dsimp only at h ⊢
    rcases m with _ | ⟨c, after⟩
    · simp [flawHere] at h
    · by_cases hc : c.isDigit <;> simp_all [flawHere, drop_length_takeWhile]
  · next _ hplus hminus =>
    split at h
    · simp [flawHere] at h
    · next c after heq =>
      rw [heq] at h
      have ht : t = c :: after := by split at heq <;> simp_all
      subst ht
      by_cases hc : c.isDigit <;> simp_all [flawHere, drop_length_takeWhile]

theorem scanExponent_of_not_exponent {e : Char} {t rest : List Char} {exp : Option (Bool × List Char)}
    (h : scanExponent (e :: t) = .ok (exp, rest)) (he : ¬(e = 'e' ∨ e = 'E')) : rest = e :: t := by
  dsimp only [scanExponent] at h
  rw [if_neg he] at h
  simp only [pure, Except.pure, Except.ok.injEq, Prod.mk.injEq] at h
  exact h.2.symm

/-- What can follow the digits of a number: nothing, an exponent, which the
skipper passes over to the same place, or text that is no exponent. -/
theorem scanExponent_cases {r rest : List Char} {exp : Option (Bool × List Char)}
    (h : scanExponent r = .ok (exp, rest)) :
    (r = [] ∧ rest = []) ∨
      (∃ e t, r = e :: t ∧ (e = 'e' ∨ e = 'E') ∧ skipExponent r = .ok rest) ∨
      (∃ e t, r = e :: t ∧ ¬(e = 'e' ∨ e = 'E') ∧ rest = r) := by
  rcases r with _ | ⟨e, t⟩
  · simp only [scanExponent, pure, Except.pure, Except.ok.injEq, Prod.mk.injEq] at h
    exact .inl ⟨rfl, h.2.symm⟩
  · by_cases he : e = 'e' ∨ e = 'E'
    · exact .inr (.inl ⟨e, t, rfl, he, skipExponent_of_scanExponent h he⟩)
    · exact .inr (.inr ⟨e, t, rfl, he, scanExponent_of_not_exponent h he⟩)

theorem skipFraction_of_scan {cs frac mid rest : List Char} {exp : Option (Bool × List Char)}
    (hf : scanFraction cs = .ok (frac, mid)) (he : scanExponent mid = .ok (exp, rest)) :
    skipFraction cs = .ok rest := by
  unfold scanFraction at hf
  split at hf
  · next more =>
    dsimp only at hf
    by_cases hds : (more.takeWhile Char.isDigit).isEmpty = true
    · rw [if_pos hds] at hf
      split at hf <;> simp [flawAhead] at hf
    · rw [if_neg hds] at hf
      simp only [pure, Except.pure, Except.ok.injEq, Prod.mk.injEq] at hf
      obtain ⟨-, rfl⟩ := hf
      simp only [skipFraction, hds]
      rcases scanExponent_cases he with ⟨hr, rfl⟩ | ⟨e, t, hr, hee, hskip⟩ | ⟨e, t, hr, hee, rfl⟩
      · simp [hr]
      · simp [hr, hee, ← hskip]
      · simp [hr, hee]
  · next hnot =>
    simp only [pure, Except.pure, Except.ok.injEq, Prod.mk.injEq] at hf
    obtain ⟨-, rfl⟩ := hf
    rcases scanExponent_cases he with ⟨rfl, rfl⟩ | ⟨e, t, rfl, hee, hskip⟩ | ⟨e, t, rfl, hee, rfl⟩
    · rfl
    · have hdot : e ≠ '.' := by rintro rfl; simp at hee
      simp [skipFraction, hee, ← hskip]
    · have hdot : e ≠ '.' := fun hd => hnot t (by rw [hd])
      unfold skipFraction
      split
      · next more heq => exact absurd (List.cons.inj heq).1 hdot
      · next _ e' _ _ heq =>
        obtain ⟨rfl, rfl⟩ := List.cons.inj heq
        rw [if_neg hee]
      · simp at *

/-- A number is skipped to where it is read to. -/
theorem skipNumber_of_scanNumber {negative : Bool} {cs rest : List Char} {n : Numeral}
    (h : scanNumber negative cs = .ok (n, rest)) : skipNumber cs = .ok rest := by
  unfold scanNumber at h
  obtain ⟨⟨whole, r1⟩, hwhole, h⟩ := bind_eq_ok_iff.mp h
  obtain ⟨⟨frac, r2⟩, hfrac, h⟩ := bind_eq_ok_iff.mp h
  obtain ⟨⟨exp, r3⟩, hexp, h⟩ := bind_eq_ok_iff.mp h
  have hr3 : r3 = rest := by
    dsimp only at h
    split at h
    · simp only [pure, Except.pure, Except.ok.injEq, Prod.mk.injEq] at h
      exact h.2
    · split at h <;> (try split at h) <;> simp [flawHere] at h
  subst hr3
  rw [skipNumber_of_scanWhole hwhole]
  exact skipFraction_of_scan hfrac hexp

/-! ## Strings -/

theorem length_of_hexEscape {cs after : List Char} {n : Nat} (h : hexEscape cs = .ok (n, after)) :
    after.length + 4 = cs.length := by
  unfold hexEscape at h
  split at h
  · simp [flawHere] at h
  · split at h
    · split at h
      · simp only [Except.ok.injEq, Prod.mk.injEq] at h
        obtain ⟨-, rfl⟩ := h
        simp
      · simp at h
    · simp at h

/-- A `\u` escape is one escape of four digits, or two when the first names a
leading surrogate. -/
theorem unicodeEscape_cases {cs after : List Char} {c : Char} (h : unicodeEscape cs = .ok (c, after)) :
    ∃ n mid, hexEscape cs = .ok (n, mid) ∧
      (after = mid ∨ ∃ m more, mid = '\\' :: 'u' :: more ∧ hexEscape more = .ok (m, after)) := by
  unfold unicodeEscape at h
  split at h
  · simp at h
  · next n mid hhex =>
    refine ⟨n, mid, hhex, ?_⟩
    split at h
    · simp [flawHere] at h
    · split at h
      · simp only [Except.ok.injEq, Prod.mk.injEq] at h
        exact .inl h.2.symm
      · split at h
        · simp [flawHere] at h
        · next more =>
          split at h
          · simp [flawHere] at h
          · next more' =>
            split at h
            · simp at h
            · next m after4 hhex2 =>
              split at h
              · simp [flawHere] at h
              · simp only [Except.ok.injEq, Prod.mk.injEq] at h
                exact .inr ⟨m, more', rfl, h.2 ▸ hhex2⟩
          · simp [flawAhead] at h
        · simp [flawAhead] at h

/-- A string is skipped to where it is read to, given a step for each character
left. -/
theorem skipString_of_scanStringFrom {n : Nat} {acc cs rest : List Char} {s : String}
    (h : scanStringFrom n acc cs = .ok (s, rest)) {f : Nat} (hf : cs.length < f) :
    skipString f cs = .ok rest := by
  fun_induction scanStringFrom n acc cs generalizing f with
  | case1 | case2 | case4 | case7 | case8 => simp [flawHere, flawAhead] at h
  | case3 =>
    simp only [Except.ok.injEq, Prod.mk.injEq] at h
    obtain ⟨f, rfl⟩ : ∃ g, f = g + 1 := ⟨f - 1, by omega⟩
    simp [skipString, h.2]
  | case5 _ _ more ih =>
    obtain ⟨⟨c, after⟩, hu, h⟩ := bind_eq_ok_iff.mp h
    obtain ⟨m, mid, hhex, hafter⟩ := unicodeEscape_cases hu
    have hmid := length_of_hexEscape hhex
    simp only [List.length_cons] at hf
    obtain ⟨f, rfl⟩ : ∃ g, f = g + 1 := ⟨f - 1, by omega⟩
    simp only [skipString, hhex]
    rcases hafter with rfl | ⟨m2, more2, rfl, hhex2⟩
    · exact ih c after h (by omega)
    · have hafter := length_of_hexEscape hhex2
      simp only [List.length_cons] at hmid
      obtain ⟨f, rfl⟩ : ∃ g, f = g + 1 := ⟨f - 1, by omega⟩
      simp only [skipString, hhex2]
      exact ih c after h (by omega)
  | case6 _ _ e more _ c hc ih =>
    simp only [List.length_cons] at hf
    obtain ⟨f, rfl⟩ : ∃ g, f = g + 1 := ⟨f - 1, by omega⟩
    simp only [skipString, hc, Option.isSome_some, if_true]
    exact ih h (by omega)
  | case9 _ _ c r hquote hescape hcontrol ih =>
    simp only [List.length_cons] at hf
    obtain ⟨f, rfl⟩ : ∃ g, f = g + 1 := ⟨f - 1, by omega⟩
    simp only [skipString, hcontrol]
    exact ih h (by omega)

/-! ## Lengths -/

theorem length_dropWhile_le (p : Char → Bool) (l : List Char) : (l.dropWhile p).length ≤ l.length :=
  (List.dropWhile_suffix p).length_le

theorem length_skipBlanks_le (cs : List Char) : (skipBlanks cs).length ≤ cs.length :=
  length_dropWhile_le isBlank cs

theorem eq_append_of_ident {w r rest : List Char} (h : ident w r = .ok rest) : r = w ++ rest := by
  induction w generalizing r with
  | nil => simpa [ident] using h
  | cons c w ih =>
    rcases r with _ | ⟨d, r⟩
    · simp [ident, flawHere] at h
    · simp only [ident] at h
      split at h
      · next hd => rw [hd, ih h, List.cons_append]
      · simp [flawHere] at h

theorem length_of_skipExponent {cs rest : List Char} (h : skipExponent cs = .ok rest) :
    rest.length < cs.length := by
  unfold skipExponent at h
  rcases cs with _ | ⟨e, t⟩
  · simp [flawHere] at h
  · simp only [List.drop_one, List.tail_cons] at h
    have hle : ∀ m : List Char, m.length ≤ t.length → ∀ c after, m = c :: after →
        (after.dropWhile Char.isDigit).length < (e :: t).length := by
      intro m hm c after hm'
      have := length_dropWhile_le Char.isDigit after
      subst hm'
      simp only [List.length_cons] at hm ⊢
      omega
    split at h
    · next c after heq =>
      split at h
      · simp only [Except.ok.injEq] at h
        subst h
        exact hle _ (by split at heq <;> simp_all) c after heq
      · simp [flawHere] at h
    · simp [flawHere] at h

theorem length_of_skipFraction {cs rest : List Char} (h : skipFraction cs = .ok rest) :
    rest.length ≤ cs.length := by
  unfold skipFraction at h
  split at h
  · next more =>
    dsimp only at h
    split at h
    · simp [flawAhead] at h
    · have hdrop : (more.drop (more.takeWhile Char.isDigit).length).length ≤ more.length := by simp
      split at h
      · next e t heq =>
        split at h
        · have := length_of_skipExponent h
          simp only [List.length_cons] at *
          omega
        · simp only [Except.ok.injEq] at h
          subst h
          simp only [List.length_cons]
          omega
      · simp only [Except.ok.injEq] at h
        subst h
        simp
  · split at h
    · exact Nat.le_of_lt (length_of_skipExponent h)
    · simp only [Except.ok.injEq] at h
      exact h ▸ Nat.le_refl _
  · simp only [Except.ok.injEq] at h
    exact h ▸ Nat.le_refl _

theorem length_of_skipNumber {cs rest : List Char} (h : skipNumber cs = .ok rest) :
    rest.length < cs.length := by
  unfold skipNumber at h
  split at h
  · split at h
    · split at h
      · simp [flawAhead] at h
      · have := length_of_skipFraction h
        simp only [List.length_cons] at *
        omega
    · simp only [Except.ok.injEq] at h
      simp [← h]
  · split at h
    · next c r _ _ =>
      have h1 := length_of_skipFraction h
      have h2 := length_dropWhile_le Char.isDigit r
      simp only [List.length_cons]
      omega
    · simp [flawHere] at h
  · simp [flawHere] at h

theorem length_of_skipString {f : Nat} {cs rest : List Char} (h : skipString f cs = .ok rest) :
    rest.length < cs.length := by
  fun_induction skipString f cs with
  | case1 | case2 | case4 | case5 | case8 | case9 => simp [flawHere, flawAhead] at h
  | case3 => simp only [Except.ok.injEq] at h; simp [← h]
  | case6 _ more _ after hhex ih =>
    have := length_of_hexEscape hhex
    have := ih h
    simp only [List.length_cons]
    omega
  | case7 _ _ more _ _ ih =>
    have := ih h
    simp only [List.length_cons]
    omega
  | case10 _ _ r _ _ _ ih =>
    have := ih h
    simp only [List.length_cons]
    omega


/-! ## Separators -/

/-- What `nextItem` finds: the closing bracket, or the next item, which past the
first item stands after a comma. -/
theorem nextItem_done {first : Bool} {cs after : List Char} (h : nextItem first cs = .ok (.done after)) :
    skipBlanks cs = ']' :: after := by
  unfold nextItem at h
  generalize skipBlanks cs = b at h ⊢
  cases first <;> simp only [Bool.false_eq_true, ↓reduceIte] at h
  · split at h
    · simp [flawAhead] at h
    · simpa using h
    · split at h <;> simp [flawAhead] at h
    · simp [flawAhead] at h
  · split at h <;> simp_all [flawAhead]

theorem nextItem_more {first : Bool} {cs start : List Char} (h : nextItem first cs = .ok (.more start)) :
    (first = true ∧ start = skipBlanks cs ∧ ∃ c r, start = c :: r ∧ c ≠ ']') ∨
      (first = false ∧ ∃ r, skipBlanks cs = ',' :: r ∧ start = skipBlanks r) := by
  unfold nextItem at h
  rcases hb : skipBlanks cs with _ | ⟨c, r⟩
  · simp [hb, flawAhead] at h
  · rw [hb] at h
    by_cases hclose : c = ']'
    · subst hclose
      simp at h
    by_cases hcomma : c = ','
    · subst hcomma
      cases first
      · simp only [Bool.false_eq_true, ↓reduceIte] at h
        refine .inr ⟨rfl, r, rfl, ?_⟩
        split at h <;> simp_all [flawAhead]
      · simp only [↓reduceIte, Except.ok.injEq, Next.more.injEq] at h
        exact .inl ⟨rfl, h.symm, ',', r, h.symm, by decide⟩
    · cases first
      · simp [hclose, hcomma, flawAhead] at h
      · simp only [↓reduceIte] at h
        have hstart : start = c :: r := by split at h <;> simp_all
        exact .inl ⟨rfl, hstart, c, r, hstart, hclose⟩

/-- What `nextKey` finds: the closing brace, or the opening quote of the next
key, which past the first member stands after a comma. -/
theorem nextKey_done {first : Bool} {cs after : List Char} (h : nextKey first cs = .ok (.done after)) :
    skipBlanks cs = '\x7d' :: after := by
  unfold nextKey at h
  generalize skipBlanks cs = b at h ⊢
  cases first <;> simp only [Bool.false_eq_true, ↓reduceIte] at h
  · split at h
    · simp [flawAhead] at h
    · simpa using h
    · simp [flawAhead] at h
    · split at h <;> simp [flawAhead] at h
    · simp [flawAhead] at h
  · split at h <;> simp_all [flawAhead]

theorem nextKey_more {first : Bool} {cs start : List Char} (h : nextKey first cs = .ok (.more start)) :
    (first = true ∧ skipBlanks cs = '"' :: start) ∨
      (first = false ∧ ∃ r, skipBlanks cs = ',' :: r ∧ skipBlanks r = '"' :: start) := by
  unfold nextKey at h
  generalize skipBlanks cs = b at h ⊢
  cases first <;> simp only [Bool.false_eq_true, ↓reduceIte] at h
  · split at h
    · simp [flawAhead] at h
    · simp at h
    · simp [flawAhead] at h
    · next r => split at h <;> simp_all [flawAhead]
    · simp [flawAhead] at h
  · split at h <;> simp_all [flawAhead]

theorem colon_eq_ok {cs rest : List Char} (h : colon cs = .ok rest) : skipBlanks cs = ':' :: rest := by
  unfold colon at h
  split at h
  · next r heq => simpa [heq] using h
  all_goals simp [flawAhead] at h

theorem length_of_nextItem_done {first : Bool} {cs after : List Char}
    (h : nextItem first cs = .ok (.done after)) : after.length < cs.length := by
  have hb := length_skipBlanks_le cs
  rw [nextItem_done h, List.length_cons] at hb
  omega

theorem length_of_nextItem_more {first : Bool} {cs start : List Char}
    (h : nextItem first cs = .ok (.more start)) : start.length ≤ cs.length := by
  have hb := length_skipBlanks_le cs
  rcases nextItem_more h with ⟨-, rfl, -⟩ | ⟨-, r, hr, rfl⟩
  · exact hb
  · have := length_skipBlanks_le r
    rw [hr, List.length_cons] at hb
    omega

theorem length_of_nextKey_done {first : Bool} {cs after : List Char}
    (h : nextKey first cs = .ok (.done after)) : after.length < cs.length := by
  have hb := length_skipBlanks_le cs
  rw [nextKey_done h, List.length_cons] at hb
  omega

theorem length_of_nextKey_more {first : Bool} {cs start : List Char}
    (h : nextKey first cs = .ok (.more start)) : start.length < cs.length := by
  have hb := length_skipBlanks_le cs
  rcases nextKey_more h with ⟨-, hs⟩ | ⟨-, r, hr, hs⟩
  · rw [hs, List.length_cons] at hb
    omega
  · have hr' := length_skipBlanks_le r
    rw [hr, List.length_cons] at hb
    rw [hs, List.length_cons] at hr'
    omega

theorem length_of_colon {cs rest : List Char} (h : colon cs = .ok rest) : rest.length < cs.length := by
  have hb := length_skipBlanks_le cs
  rw [colon_eq_ok h, List.length_cons] at hb
  omega

/-! ## The grammar -/

mutual
/-- The text `cs` spells the value `v`, as it is written, at nesting depth
`depth`, and `rest` follows it: the tokens are those of the readers, and arrays
and objects nest no deeper than `maxDepth`. -/
inductive Spells : Nat → List Char → Json → List Char → Prop
  | null {depth : Nat} {cs r rest : List Char} :
      skipBlanks cs = 'n' :: r → ident "ull".toList r = .ok rest → Spells depth cs .null rest
  | trueLit {depth : Nat} {cs r rest : List Char} :
      skipBlanks cs = 't' :: r → ident "rue".toList r = .ok rest → Spells depth cs (.bool true) rest
  | falseLit {depth : Nat} {cs r rest : List Char} :
      skipBlanks cs = 'f' :: r → ident "alse".toList r = .ok rest → Spells depth cs (.bool false) rest
  | negative {depth : Nat} {cs r rest : List Char} {n : Numeral} :
      skipBlanks cs = '-' :: r → scanNumber true r = .ok (n, rest) → Spells depth cs (.num n) rest
  | number {depth : Nat} {cs r rest : List Char} {c : Char} {n : Numeral} :
      skipBlanks cs = c :: r → c.isDigit = true → scanNumber false (c :: r) = .ok (n, rest) →
      Spells depth cs (.num n) rest
  | str {depth : Nat} {cs r rest : List Char} {s : String} :
      skipBlanks cs = '"' :: r → scanString r = .ok (s, rest) → Spells depth cs (.str s) rest
  | arr {depth : Nat} {cs r rest : List Char} {xs : List Json} :
      skipBlanks cs = '[' :: r → depth < maxDepth → SpellsItems (depth + 1) true r xs rest →
      Spells depth cs (.arr xs) rest
  | obj {depth : Nat} {cs r rest : List Char} {fs : List (String × Json)} :
      skipBlanks cs = '\x7b' :: r → depth < maxDepth → SpellsFields (depth + 1) true r fs rest →
      Spells depth cs (.obj fs) rest

/-- The text `cs` spells the items `xs` of an array and its closing bracket;
`first` says whether no item has been read yet. -/
inductive SpellsItems : Nat → Bool → List Char → List Json → List Char → Prop
  | done {depth : Nat} {first : Bool} {cs rest : List Char} :
      nextItem first cs = .ok (.done rest) → SpellsItems depth first cs [] rest
  | more {depth : Nat} {first : Bool} {cs start r rest : List Char} {x : Json} {xs : List Json} :
      nextItem first cs = .ok (.more start) → Spells depth start x r → SpellsItems depth false r xs rest →
      SpellsItems depth first cs (x :: xs) rest

/-- The text `cs` spells the members `fs` of an object, in the order written,
and its closing brace. -/
inductive SpellsFields : Nat → Bool → List Char → List (String × Json) → List Char → Prop
  | done {depth : Nat} {first : Bool} {cs rest : List Char} :
      nextKey first cs = .ok (.done rest) → SpellsFields depth first cs [] rest
  | more {depth : Nat} {first : Bool} {cs start r r' r'' rest : List Char} {k : String} {x : Json}
      {fs : List (String × Json)} :
      nextKey first cs = .ok (.more start) → scanString start = .ok (k, r) → colon r = .ok r' →
      Spells depth r' x r'' → SpellsFields depth false r'' fs rest →
      SpellsFields depth first cs ((k, x) :: fs) rest
end

theorem length_of_scanString {cs rest : List Char} {s : String} (h : scanString cs = .ok (s, rest)) :
    rest.length < cs.length :=
  length_of_skipString (skipString_of_scanStringFrom h (Nat.lt_succ_self _))

theorem length_of_scanNumber {negative : Bool} {cs rest : List Char} {n : Numeral}
    (h : scanNumber negative cs = .ok (n, rest)) : rest.length < cs.length :=
  length_of_skipNumber (skipNumber_of_scanNumber h)

mutual
/-- What a value spells is no longer than the text it stands in. -/
theorem Spells.length_lt {depth : Nat} {cs rest : List Char} {v : Json} :
    Spells depth cs v rest → rest.length < cs.length
  | .null hb hid | .trueLit hb hid | .falseLit hb hid => by
    have := length_skipBlanks_le cs
    rw [hb, eq_append_of_ident hid] at this
    simp at this
    omega
  | .negative hb hn => by
    have := length_skipBlanks_le cs
    have := length_of_scanNumber hn
    rw [hb, List.length_cons] at *
    omega
  | .number hb _ hn => by
    have := length_skipBlanks_le cs
    have := length_of_scanNumber hn
    rw [hb] at *
    omega
  | .str hb hs => by
    have := length_skipBlanks_le cs
    have := length_of_scanString hs
    rw [hb, List.length_cons] at *
    omega
  | .arr hb _ hitems => by
    have := length_skipBlanks_le cs
    have := SpellsItems.length_lt hitems
    rw [hb, List.length_cons] at *
    omega
  | .obj hb _ hfields => by
    have := length_skipBlanks_le cs
    have := SpellsFields.length_lt hfields
    rw [hb, List.length_cons] at *
    omega

theorem SpellsItems.length_lt {depth : Nat} {first : Bool} {cs rest : List Char} {xs : List Json} :
    SpellsItems depth first cs xs rest → rest.length < cs.length
  | .done hn => length_of_nextItem_done hn
  | .more hn hx hxs => by
    have := length_of_nextItem_more hn
    have := Spells.length_lt hx
    have := SpellsItems.length_lt hxs
    omega

theorem SpellsFields.length_lt {depth : Nat} {first : Bool} {cs rest : List Char}
    {fs : List (String × Json)} : SpellsFields depth first cs fs rest → rest.length < cs.length
  | .done hn => length_of_nextKey_done hn
  | .more hn hk hc hx hfs => by
    have := length_of_nextKey_more hn
    have := length_of_scanString hk
    have := length_of_colon hc
    have := Spells.length_lt hx
    have := SpellsFields.length_lt hfs
    omega
end

/-! ## Skipping what the grammar spells -/

theorem skipValue_skipBlanks (f : Nat) (cs : List Char) :
    skipValue (f + 1) (skipBlanks cs) = skipValue (f + 1) cs := by
  rw [skipValue, skipValue, skipBlanks_skipBlanks]

/-- The first item of an array is skipped where it stands. -/
theorem skipItems_first {f : Nat} {cs r : List Char} {c : Char} (hb : skipBlanks cs = c :: r)
    (hc : c ≠ ']') : skipItems (f + 1) true cs = skipValue f (c :: r) >>= skipItems f false := by
  by_cases hcomma : c = ','
  · subst hcomma
    simp only [skipItems, hb, ↓reduceIte]
  · simp only [skipItems, hb, ↓reduceIte]
    split
    · next heq => exact absurd (List.cons.inj heq).1 hc
    · simp at *
    · next heq => exact absurd (List.cons.inj heq).1 hcomma
    · rfl

theorem skipItems_next {f : Nat} {cs r : List Char} (hb : skipBlanks cs = ',' :: r) :
    skipItems (f + 1) false cs = skipValue f r >>= skipItems f false := by
  simp only [skipItems, hb, Bool.false_eq_true, ↓reduceIte]

theorem skipItems_done {f : Nat} {first : Bool} {cs r : List Char} (hb : skipBlanks cs = ']' :: r) :
    skipItems (f + 1) first cs = .ok r := by
  simp only [skipItems, hb]

theorem skipFields_done {f : Nat} {first : Bool} {cs r : List Char} (hb : skipBlanks cs = '\x7d' :: r) :
    skipFields (f + 1) first cs = .ok r := by
  simp only [skipFields, hb]

theorem skipFields_first {f : Nat} {cs r : List Char} (hb : skipBlanks cs = '"' :: r) :
    skipFields (f + 1) true cs = skipField f ('"' :: r) := by
  simp only [skipFields, hb, ↓reduceIte]
  rfl

theorem skipFields_next {f : Nat} {cs r : List Char} (hb : skipBlanks cs = ',' :: r) :
    skipFields (f + 1) false cs = skipField f r := by
  simp only [skipFields, hb, Bool.false_eq_true, ↓reduceIte]

theorem skipField_key {f : Nat} {cs start : List Char} (hb : skipBlanks cs = '"' :: start) :
    skipField (f + 1) cs = (do
      let r ← skipString (start.length + 1) start
      let r ← colon r
      let r ← skipValue f r
      skipFields f false r) := by
  simp only [skipField, hb]

mutual
/-- What the grammar spells, the skipper passes over to the same place, given
two steps for each character it takes. -/
theorem Spells.skipValue {depth : Nat} {cs rest : List Char} {v : Json} :
    Spells depth cs v rest → ∀ f, 2 * (cs.length - rest.length) ≤ f → skipValue f cs = .ok rest
  | h@(.null hb hid), f, hf => by
    have := h.length_lt
    obtain ⟨f, rfl⟩ : ∃ g, f = g + 1 := ⟨f - 1, by omega⟩
    simpa only [JsonText.skipValue, hb] using hid
  | h@(.trueLit hb hid), f, hf => by
    have := h.length_lt
    obtain ⟨f, rfl⟩ : ∃ g, f = g + 1 := ⟨f - 1, by omega⟩
    simpa only [JsonText.skipValue, hb] using hid
  | h@(.falseLit hb hid), f, hf => by
    have := h.length_lt
    obtain ⟨f, rfl⟩ : ∃ g, f = g + 1 := ⟨f - 1, by omega⟩
    simpa only [JsonText.skipValue, hb] using hid
  | h@(.negative hb hn), f, hf => by
    have := h.length_lt
    obtain ⟨f, rfl⟩ : ∃ g, f = g + 1 := ⟨f - 1, by omega⟩
    simpa only [JsonText.skipValue, hb] using skipNumber_of_scanNumber hn
  | h@(.number hb hdigit hn), f, hf => by
    have := h.length_lt
    obtain ⟨f, rfl⟩ : ∃ g, f = g + 1 := ⟨f - 1, by omega⟩
    obtain ⟨hn', ht, hf', hminus, hquote, hbracket, hbrace, -⟩ := digit_opens_number hdigit
    simp only [JsonText.skipValue, hb, hdigit, if_true]
    exact skipNumber_of_scanNumber hn
  | h@(.str hb hs), f, hf => by
    have := h.length_lt
    obtain ⟨f, rfl⟩ : ∃ g, f = g + 1 := ⟨f - 1, by omega⟩
    simpa only [JsonText.skipValue, hb] using skipString_of_scanStringFrom hs (Nat.lt_succ_self _)
  | .arr hb _ hitems, f, hf => by
    have hlen := length_skipBlanks_le cs
    have := hitems.length_lt
    rw [hb, List.length_cons] at hlen
    obtain ⟨f, rfl⟩ : ∃ g, f = g + 1 := ⟨f - 1, by omega⟩
    simp only [JsonText.skipValue, hb]
    exact SpellsItems.skipItems hitems f (by omega)
  | .obj hb _ hfields, f, hf => by
    have hlen := length_skipBlanks_le cs
    have := hfields.length_lt
    rw [hb, List.length_cons] at hlen
    obtain ⟨f, rfl⟩ : ∃ g, f = g + 1 := ⟨f - 1, by omega⟩
    simp only [JsonText.skipValue, hb]
    exact SpellsFields.skipFields hfields f (by omega)

theorem SpellsItems.skipItems {depth : Nat} {first : Bool} {cs rest : List Char} {xs : List Json} :
    SpellsItems depth first cs xs rest → ∀ f, 2 * (cs.length - rest.length) + 1 ≤ f →
      skipItems f first cs = .ok rest
  | .done hn, f, hf => by
    obtain ⟨f, rfl⟩ : ∃ g, f = g + 1 := ⟨f - 1, by omega⟩
    exact skipItems_done (nextItem_done hn)
  | .more hn hx hxs, f, hf => by
    have h1 := length_of_nextItem_more hn
    have h2 := hx.length_lt
    have h3 := hxs.length_lt
    obtain ⟨f, rfl⟩ : ∃ g, f = g + 1 := ⟨f - 1, by omega⟩
    rcases nextItem_more hn with ⟨rfl, hstart, c, r, hcr, hc⟩ | ⟨rfl, r, hb, rfl⟩
    · rw [skipItems_first (hstart ▸ hcr) hc, ← hcr, Spells.skipValue hx f (by omega), ok_bind]
      exact SpellsItems.skipItems hxs f (by omega)
    · have hr := length_skipBlanks_le r
      obtain ⟨f, rfl⟩ : ∃ g, f = g + 1 := ⟨f - 1, by omega⟩
      rw [skipItems_next hb, ← skipValue_skipBlanks, Spells.skipValue hx (f + 1) (by omega), ok_bind]
      exact SpellsItems.skipItems hxs (f + 1) (by omega)

theorem SpellsFields.skipFields {depth : Nat} {first : Bool} {cs rest : List Char}
    {fs : List (String × Json)} :
    SpellsFields depth first cs fs rest → ∀ f, 2 * (cs.length - rest.length) + 1 ≤ f →
      skipFields f first cs = .ok rest
  | .done hn, f, hf => by
    obtain ⟨f, rfl⟩ : ∃ g, f = g + 1 := ⟨f - 1, by omega⟩
    exact skipFields_done (nextKey_done hn)
  | @SpellsFields.more _ _ _ start _ _ _ _ _ _ _ hn hk hc hx hfs, f, hf => by
    have h1 := length_of_nextKey_more hn
    have h2 := length_of_scanString hk
    have h3 := length_of_colon hc
    have h4 := hx.length_lt
    have h5 := hfs.length_lt
    obtain ⟨f, rfl⟩ : ∃ g, f = g + 2 := ⟨f - 2, by omega⟩
    have hkey : ∀ X, skipBlanks X = '"' :: start → skipField (f + 1) X = .ok rest := by
      intro X hX
      rw [skipField_key hX, skipString_of_scanStringFrom hk (Nat.lt_succ_self _), ok_bind, hc, ok_bind,
        Spells.skipValue hx f (by omega), ok_bind]
      exact SpellsFields.skipFields hfs f (by omega)
    rcases nextKey_more hn with ⟨rfl, hb⟩ | ⟨rfl, r, hb, hr⟩
    · rw [skipFields_first hb]
      exact hkey _ (by rw [← hb, skipBlanks_skipBlanks])
    · rw [skipFields_next hb]
      exact hkey r hr
end

/-! ## The reader of any value reads what the grammar spells -/

open Json

theorem readAny_skipBlanks (g depth : Nat) (cs : List Char) :
    readAny (g + 1) depth (skipBlanks cs) = readAny (g + 1) depth cs := by
  rw [readAny, readAny, skipBlanks_skipBlanks]

theorem readAs_skipBlanks (g depth : Nat) (s : Schema) (cs : List Char) :
    readAs (g + 1) depth s (skipBlanks cs) = readAs (g + 1) depth s cs := by
  unfold readAs
  rw [skipBlanks_skipBlanks]

theorem isBlank_head_skipBlanks {cs r : List Char} {c : Char} (h : skipBlanks cs = c :: r) :
    isBlank c = false := by
  induction cs with
  | nil => simp [skipBlanks] at h
  | cons d cs ih =>
    by_cases hd : isBlank d = true
    · simp only [skipBlanks, List.dropWhile_cons, hd, if_true] at h
      exact ih h
    · simp only [skipBlanks, List.dropWhile_cons, hd, Bool.false_eq_true, if_false, List.cons.injEq] at h
      rw [← h.1]
      simpa using hd

theorem readAs_anything_of_ne {g depth : Nat} {cs : List Char} (h : skipBlanks cs ≠ []) :
    readAs (g + 2) depth .anything cs = readAny (g + 1) depth cs := by
  obtain ⟨c, r, hcr⟩ := List.exists_cons_of_ne_nil h
  rw [← readAny_skipBlanks, ← readAs_skipBlanks, hcr, readAs_anything (isBlank_head_skipBlanks hcr)]

-- The facts that a digit is none of the characters that open other values
-- decide the reader's match on the first character; the linter does not see
-- them used.
set_option linter.unusedSimpArgs false in
theorem readAny_number {g depth : Nat} {cs r rest : List Char} {c : Char} {n : Numeral}
    (hb : skipBlanks cs = c :: r) (hdigit : c.isDigit = true) (hn : scanNumber false (c :: r) = .ok (n, rest)) :
    readAny (g + 1) depth cs = .ok (.num n, rest) := by
  obtain ⟨hn', ht, hf', hminus, hquote, hbracket, hbrace, -⟩ := digit_opens_number hdigit
  simp only [JsonText.readAny, hb, hn', ht, hf', hminus, hquote, hbracket, hbrace, hdigit, if_true, hn, ok_bind]
  rfl

theorem Spells.skipBlanks_ne_nil {depth : Nat} {cs rest : List Char} {v : Json} (h : Spells depth cs v rest) :
    skipBlanks cs ≠ [] := by
  cases h <;> simp_all

mutual
/-- The reader of any value reads what the grammar spells as its keyed view,
given two steps for each character it takes and one more. -/
theorem Spells.readAny {depth : Nat} {cs rest : List Char} {v : Json} :
    Spells depth cs v rest → ∀ g, 2 * (cs.length - rest.length) + 1 ≤ g →
      readAny g depth cs = .ok (v.normalize, rest)
  | .null hb hid, g + 1, _ => by
    simp only [JsonText.readAny, hb, hid, ok_bind]
    rfl
  | .trueLit hb hid, g + 1, _ => by
    simp only [JsonText.readAny, hb, hid, ok_bind]
    rfl
  | .falseLit hb hid, g + 1, _ => by
    simp only [JsonText.readAny, hb, hid, ok_bind]
    rfl
  | .negative hb hn, g + 1, _ => by
    simp only [JsonText.readAny, hb, hn, ok_bind]
    rfl
  | .number hb hdigit hn, g + 1, _ => readAny_number hb hdigit hn
  | .str hb hs, g + 1, _ => by
    simp only [JsonText.readAny, hb, hs, ok_bind]
    rfl
  | .arr hb hd hitems, g + 1, hg => by
    have hlen := length_skipBlanks_le cs
    have := hitems.length_lt
    rw [hb, List.length_cons] at hlen
    simp only [JsonText.readAny, hb, show ¬ maxDepth ≤ depth by omega, if_false,
      SpellsItems.readItems hitems g [] (by omega), ok_bind]
    simp [Json.normalize]
  | .obj hb hd hfields, g + 1, hg => by
    have hlen := length_skipBlanks_le cs
    have := hfields.length_lt
    rw [hb, List.length_cons] at hlen
    simp only [JsonText.readAny, hb, show ¬ maxDepth ≤ depth by omega, if_false,
      SpellsFields.readEntries hfields g [] (by omega), ok_bind]
    simp [normalize_obj, normalizeFields_normalizeFields]

theorem SpellsItems.readItems {depth : Nat} {first : Bool} {cs rest : List Char} {xs : List Json} :
    SpellsItems depth first cs xs rest → ∀ g acc, 2 * (cs.length - rest.length) + 1 ≤ g →
      readItems g depth .anything first acc cs = .ok (acc.reverse ++ normalizeItems xs, rest)
  | .done hn, g + 1, acc, _ => by
    simp only [JsonText.readItems, hn, ok_bind]
    simp [normalizeItems]
  | .more hn hx hxs, g + 1, acc, hg => by
    have h1 := length_of_nextItem_more hn
    have h2 := hx.length_lt
    have h3 := hxs.length_lt
    obtain ⟨g, rfl⟩ : ∃ f, g = f + 2 := ⟨g - 2, by omega⟩
    unfold JsonText.readItems
    simp only [hn, ok_bind, readAs_anything_of_ne hx.skipBlanks_ne_nil, Spells.readAny hx (g + 1) (by omega)]
    rw [SpellsItems.readItems hxs (g + 2) _ (by omega)]
    simp [normalizeItems]

theorem SpellsFields.readEntries {depth : Nat} {first : Bool} {cs rest : List Char}
    {fs : List (String × Json)} :
    SpellsFields depth first cs fs rest → ∀ g acc, 2 * (cs.length - rest.length) + 1 ≤ g →
      readEntries g depth .anything first acc cs = .ok (acc.reverse ++ normalizeFields fs, rest)
  | .done hn, g + 1, acc, _ => by
    simp only [JsonText.readEntries, hn, ok_bind]
    simp [normalizeFields]
  | .more hn hk hc hx hfs, g + 1, acc, hg => by
    have h1 := length_of_nextKey_more hn
    have h2 := length_of_scanString hk
    have h3 := length_of_colon hc
    have h4 := hx.length_lt
    have h5 := hfs.length_lt
    obtain ⟨g, rfl⟩ : ∃ f, g = f + 2 := ⟨g - 2, by omega⟩
    unfold JsonText.readEntries
    simp only [hn, hk, hc, ok_bind, readAs_anything_of_ne hx.skipBlanks_ne_nil,
      Spells.readAny hx (g + 1) (by omega)]
    rw [SpellsFields.readEntries hfs (g + 2) _ (by omega)]
    simp [normalizeFields]
end

/-! ## Nodes -/

mutual
/-- A value has no more nodes than characters it takes to spell. -/
theorem Spells.nodeCount_le {depth : Nat} {cs rest : List Char} {v : Json} :
    Spells depth cs v rest → v.asDocument.nodeCount + rest.length ≤ cs.length
  | h@(.null _ _) | h@(.trueLit _ _) | h@(.falseLit _ _) | h@(.negative _ _) | h@(.number _ _ _)
  | h@(.str _ _) => by
    have := h.length_lt
    simp only [asDocument, Yaml.nodeCount]
    omega
  | .arr hb _ hitems => by
    have hlen := length_skipBlanks_le cs
    have := SpellsItems.nodeCount_le hitems
    rw [hb, List.length_cons] at hlen
    simp only [asDocument, Yaml.nodeCount]
    omega
  | .obj hb _ hfields => by
    have hlen := length_skipBlanks_le cs
    have := SpellsFields.nodeCount_le hfields
    rw [hb, List.length_cons] at hlen
    simp only [asDocument, Yaml.nodeCount]
    omega

theorem SpellsItems.nodeCount_le {depth : Nat} {first : Bool} {cs rest : List Char} {xs : List Json} :
    SpellsItems depth first cs xs rest → Yaml.nodeCountItems (asDocumentItems xs) + rest.length < cs.length
  | .done hn => by
    have := length_of_nextItem_done hn
    simp only [asDocumentItems, Yaml.nodeCountItems]
    omega
  | .more hn hx hxs => by
    have := length_of_nextItem_more hn
    have := Spells.nodeCount_le hx
    have := SpellsItems.nodeCount_le hxs
    simp only [asDocumentItems, Yaml.nodeCountItems]
    omega

theorem SpellsFields.nodeCount_le {depth : Nat} {first : Bool} {cs rest : List Char}
    {fs : List (String × Json)} :
    SpellsFields depth first cs fs rest → Yaml.nodeCountEntries (asDocumentFields fs) + rest.length < cs.length
  | .done hn => by
    have := length_of_nextKey_done hn
    simp only [asDocumentFields, Yaml.nodeCountEntries]
    omega
  | .more hn hk hc hx hfs => by
    have := length_of_nextKey_more hn
    have := length_of_scanString hk
    have := length_of_colon hc
    have := Spells.nodeCount_le hx
    have := SpellsFields.nodeCount_le hfs
    simp only [asDocumentFields, Yaml.nodeCountEntries, Yaml.nodeCount]
    omega
end

end JsonText

end DenyPolicy
