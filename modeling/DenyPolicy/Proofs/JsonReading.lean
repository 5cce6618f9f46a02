import DenyPolicy.Proofs.JsonLayout
import DenyPolicy.Proofs.Stages
/-!
# Reading laid-out JSON back

A typed reading of JSON text gives back the document that was written, under
either layout, whenever the document fits the schema it is read against.  The
escapes of the printer are undone by the string scanner
(`scanString_escaped`), decimal integers are read back by the number scanner
(`scanNumber_toString`), and blanks are skipped wherever a layout puts them.

`ReadsBack s depth v` says that the schema `s` reads `v` back from any layout
of it, at nesting depth `depth`, with fuel for the weight of `v`, followed by
any text that can end a value.  It holds of strings, flags, integers in range
and names of a choice, and it is carried through arrays, dictionaries whose
keys are in order, and records whose fields follow their members
(`readsBack_list`, `readsBack_dictionary`, `readsBack_record`).  A whole text
is read back by `readText_layout`, since the reader's fuel of twice the text's
length exceeds any weight.
-/

namespace DenyPolicy

namespace JsonText

open Json

/-! ## Blanks -/

theorem skipBlanks_append_blanks {bs : List Char} (h : bs.all isBlank = true) (cs : List Char) :
    skipBlanks (bs ++ cs) = skipBlanks cs := by
  induction bs with
  | nil => rfl
  | cons b bs ih =>
    rw [List.all_cons, Bool.and_eq_true] at h
    simp only [skipBlanks, List.cons_append, List.dropWhile_cons, h.1, ↓reduceIte]
    exact ih h.2

theorem skipBlanks_nonblank {c : Char} (hc : isBlank c = false) (cs : List Char) :
    skipBlanks (c :: cs) = c :: cs := by
  simp [skipBlanks, hc]

def Ends (rest : List Char) : Prop :=
  ∀ c ∈ rest.head?, c = ',' ∨ c = ']' ∨ c = '\x7d' ∨ isBlank c = true

theorem ends_nil : Ends [] := by
  simp [Ends]

theorem ends_comma (rest : List Char) : Ends (',' :: rest) := by
  simp [Ends]

theorem ends_blanks_close {bs : List Char} (hbs : bs.all isBlank = true) {c : Char}
    (hc : c = ']' ∨ c = '\x7d') (rest : List Char) : Ends (bs ++ c :: rest) := by
  cases bs with
  | nil => rcases hc with rfl | rfl <;> simp [Ends]
  | cons b bs =>
    rw [List.all_cons, Bool.and_eq_true] at hbs
    simp [Ends, hbs.1]

theorem readAs_blanks {bs : List Char} (h : bs.all isBlank = true) (fuel depth : Nat) (s : Schema)
    (cs : List Char) : readAs (fuel + 1) depth s (bs ++ cs) = readAs (fuel + 1) depth s cs := by
  unfold readAs
  rw [skipBlanks_append_blanks h]

/-! ## Strings -/

theorem bytesLeft_of_le_length : ∀ {n : Nat} {cs : List Char}, n ≤ cs.length → bytesLeft n cs = true
  | n, [], h => by simp_all [bytesLeft]
  | n, c :: cs, h => by
    have hsize := c.utf8Size_pos
    by_cases hn : n ≤ c.utf8Size
    · simp [bytesLeft, hn]
    · simp only [bytesLeft, Bool.or_eq_true, decide_eq_true_eq]
      exact .inr (bytesLeft_of_le_length (by simp at h; omega))

theorem hexValue?_hexDigit : ∀ q, q < 16 → Json.hexValue? (hexDigit q) = some q := by
  decide

/-- One written character is read back as itself, a step of the scanner's fuel. -/
theorem scanStringFrom_escapeChar (fuel : Nat) (acc : List Char) (c : Char) (more : List Char) :
    scanStringFrom (fuel + 1) acc (escapeChar c ++ more) = scanStringFrom fuel (c :: acc) more := by
  unfold escapeChar
  split
  · subst_vars
    simp [scanStringFrom, shortEscape?]
  split
  · subst_vars
    simp [scanStringFrom, shortEscape?]
  split
  · subst_vars
    simp [scanStringFrom, shortEscape?]
  split
  · subst_vars
    simp [scanStringFrom, shortEscape?]
  split
  · subst_vars
    simp [scanStringFrom, shortEscape?]
  split
  · rename_i h
    have hc : c = Char.ofNat 8 := by rw [← Char.ofNat_toNat c, h]
    subst hc
    simp [scanStringFrom, shortEscape?]
  split
  · rename_i h
    have hc : c = Char.ofNat 12 := by rw [← Char.ofNat_toNat c, h]
    subst hc
    simp [scanStringFrom, shortEscape?]
  split
  · rename_i hcontrol
    have hhigh := hexValue?_hexDigit (c.toNat / 16) (by omega)
    have hlow := hexValue?_hexDigit (c.toNat % 16) (by omega)
    have hbytes : bytesLeft 4 ('0' :: '0' :: hexDigit (c.toNat / 16) :: hexDigit (c.toNat % 16) :: more) =
        true := bytesLeft_of_le_length (by simp)
    have hvalue : c.toNat / 16 * 16 + c.toNat % 16 = c.toNat := by omega
    simp only [List.cons_append, List.nil_append, scanStringFrom, unicodeEscape, hexEscape, hbytes,
      Bool.not_true, Bool.false_eq_true, ↓reduceIte, Json.hex4?, hhigh, hlow]
    simp [Json.hexValue?, hvalue, show c.toNat < 55296 by omega, show ¬ 56320 ≤ c.toNat by omega,
      Char.ofNat_toNat, ok_bind]
  · rename_i hquote hbackslash _ _ _ _ _ hcontrol
    simp only [List.singleton_append]
    rw [scanStringFrom]
    · simp [hcontrol]
    · simpa using hquote
    · simpa using hbackslash

theorem length_le_length_flatMap_escapeChar (cs : List Char) :
    cs.length ≤ (cs.flatMap escapeChar).length := by
  induction cs with
  | nil => simp
  | cons c cs ih =>
    have hc : 1 ≤ (escapeChar c).length := by
      unfold escapeChar
      repeat' split
      all_goals simp
    simp only [List.flatMap_cons, List.length_append, List.length_cons]
    omega

theorem scanStringFrom_escaped :
    ∀ (cs : List Char) {fuel : Nat} {acc rest : List Char}, cs.length < fuel →
      scanStringFrom fuel acc (cs.flatMap escapeChar ++ '"' :: rest) =
        .ok (String.ofList (acc.reverse ++ cs), rest)
  | [], fuel + 1, acc, rest, _ => by simp [scanStringFrom]
  | c :: cs, fuel + 1, acc, rest, h => by
    rw [List.flatMap_cons, List.append_assoc, scanStringFrom_escapeChar,
      scanStringFrom_escaped cs (by simp at h; omega)]
    simp

theorem scanString_escaped (s : String) (rest : List Char) :
    scanString (s.toList.flatMap escapeChar ++ '"' :: rest) = .ok (s, rest) := by
  have hlength := length_le_length_flatMap_escapeChar s.toList
  rw [scanString, scanStringFrom_escaped s.toList
    (by rw [List.length_append, List.length_cons]; omega)]
  simp

theorem toList_quote (s : String) : (quote s).toList = '"' :: (s.toList.flatMap escapeChar ++ ['"']) := by
  simp [quote]

/-! ## Numbers -/

theorem toDigits_head_ne_zero : ∀ {n : Nat}, 0 < n → ∃ c ds, Nat.toDigits 10 n = c :: ds ∧ c ≠ '0'
  | n, hn => by
    rw [Nat.toDigits_eq_if (by decide)]
    split
    · exact ⟨_, _, rfl, by simp; omega⟩
    · have := Nat.div_lt_self hn (by decide : 1 < 10)
      obtain ⟨c, ds, hdigits, hc⟩ := toDigits_head_ne_zero (by omega : 0 < n / 10)
      exact ⟨c, ds ++ [Nat.digitChar (n % 10)], by rw [hdigits, List.cons_append], hc⟩
termination_by n => n

theorem digitsValue_toDigits (n : Nat) : Json.digitsValue (Nat.toDigits 10 n) = n :=
  Nat.ofDigitChars_ten_toDigits

theorem isDigit_false_of_ends {rest : List Char} (h : Ends rest) :
    ∀ c ∈ rest.head?, c.isDigit = false ∧ c ≠ '.' ∧ c ≠ 'e' ∧ c ≠ 'E' := by
  intro c hc
  rcases h c hc with rfl | rfl | rfl | hblank
  · decide
  · decide
  · decide
  · simp only [isBlank, Bool.or_eq_true, decide_eq_true_eq] at hblank
    rcases hblank with ((rfl | rfl) | rfl) | rfl <;> decide

/-- Digits followed by text that does not open with a digit split where the
digits end. -/
theorem span_digits_append {ds rest : List Char} (hds : ∀ d ∈ ds, d.isDigit = true)
    (hrest : ∀ c ∈ rest.head?, c.isDigit = false) :
    (ds ++ rest).takeWhile Char.isDigit = ds ∧ (ds ++ rest).dropWhile Char.isDigit = rest := by
  induction ds with
  | nil =>
    cases rest with
    | nil => simp
    | cons c cs => simp [hrest c rfl]
  | cons d ds ih =>
    have hd := hds d List.mem_cons_self
    obtain ⟨htake, hdrop⟩ := ih fun x hx => hds x (List.mem_cons_of_mem d hx)
    simp [hd, htake, hdrop]

/-- The digits of a number are read back, before text that ends a value, as
whatever their sign and value classify to. -/
theorem scanNumber_digits {negative : Bool} {n : Nat} {v : Numeral}
    (hvalue : Json.classifyNumber negative (Nat.toDigits 10 n) [] none = .ok v) {rest : List Char}
    (hrest : Ends rest) : scanNumber negative ((toString n).toList ++ rest) = .ok (v, rest) := by
  have hdigits : (toString n).toList = Nat.toDigits 10 n := Nat.toList_repr
  have hall : ∀ c ∈ Nat.toDigits 10 n, c.isDigit = true :=
    fun c hc => Nat.isDigit_of_mem_toDigits (by decide) (by decide) hc
  have hnext := isDigit_false_of_ends hrest
  rw [hdigits]
  by_cases hzero : n = 0
  · subst hzero
    simp only [Nat.toDigits_zero, List.cons_append, List.nil_append] at hvalue ⊢
    cases rest with
    | nil => simp [scanNumber, scanWhole, scanFraction, scanExponent, hvalue]
    | cons c cs =>
      obtain ⟨h1, h2, h3, h4⟩ := hnext c rfl
      simp [scanNumber, scanWhole, scanFraction, scanExponent, h1, h2, h3, h4, hvalue]
  · obtain ⟨c, ds, hcds, hc⟩ := toDigits_head_ne_zero (Nat.pos_of_ne_zero hzero)
    rw [hcds] at hall hvalue ⊢
    have hdigit := hall c List.mem_cons_self
    have hrange : '1' ≤ c ∧ c ≤ '9' := by
      simp only [Char.isDigit, Bool.and_eq_true, decide_eq_true_eq] at hdigit
      refine ⟨?_, hdigit.2⟩
      have hne : c.toNat ≠ 48 := fun e => hc (by rw [← Char.ofNat_toNat c, e])
      have hle := hdigit.1
      simp only [Char.le_def, UInt32.le_iff_toNat_le] at hle ⊢
      change 48 ≤ c.toNat at hle
      change 49 ≤ c.toNat
      omega
    have hds : ∀ d ∈ ds, d.isDigit = true := fun d hd => hall d (List.mem_cons_of_mem c hd)
    cases rest with
    | nil =>
      obtain ⟨htake, hdrop⟩ := span_digits_append hds (by simp : ∀ d ∈ ([] : List Char).head?,
        d.isDigit = false)
      simp only [List.append_nil] at htake hdrop
      simp [scanNumber, scanWhole, scanFraction, scanExponent, hrange, htake, hdrop, hvalue]
    | cons d ds' =>
      obtain ⟨h1, h2, h3, h4⟩ := hnext d rfl
      obtain ⟨htake, hdrop⟩ := span_digits_append hds
        (by simpa using h1 : ∀ x ∈ (d :: ds').head?, x.isDigit = false)
      simp [scanNumber, scanWhole, scanFraction, scanExponent, hrange, htake, hdrop, h2, h3, h4, hvalue]

/-- A decimal integer in the 64-bit range is read back, before text that ends a
value. -/
theorem scanNumber_toString {n : Nat} (hn : n ≤ Json.u64Max) {rest : List Char} (hrest : Ends rest) :
    scanNumber false ((toString n).toList ++ rest) = .ok (.nat n, rest) :=
  scanNumber_digits (by simp [Json.classifyNumber, digitsValue_toDigits, show ¬ n > Json.u64Max by omega]) hrest

theorem scanNumber_negative {n : Nat} (hpos : 0 < n) (hn : n ≤ Nat.pow 2 63) {rest : List Char}
    (hrest : Ends rest) : scanNumber true ((toString n).toList ++ rest) = .ok (.negInt n, rest) := by
  have h64 : ¬ n > Json.u64Max := by
    simp only [Json.u64Max]
    have : Nat.pow 2 63 < Nat.pow 2 64 := by decide
    omega
  exact scanNumber_digits (by simp [Json.classifyNumber, digitsValue_toDigits, h64, hn,
    Nat.pos_iff_ne_zero.mp hpos]) hrest

/-! ## Separators -/

theorem nextItem_close (first : Bool) {bs : List Char} (hbs : bs.all isBlank = true) (rest : List Char) :
    nextItem first (bs ++ ']' :: rest) = .ok (.done rest) := by
  unfold nextItem
  rw [skipBlanks_append_blanks hbs, skipBlanks_nonblank (by decide)]
  rfl

/-- An item is found where a layout puts one: first, or after a comma. -/
theorem nextItem_layout (l : Layout) (indent : Nat) (first : Bool) (x : Json) (more : List Char) :
    nextItem first ((if first then [] else [',']) ++ (l.lineBreak indent ++ (layout l indent x ++ more))) =
      .ok (.more (layout l indent x ++ more)) := by
  obtain ⟨c, cs, hx, hc⟩ := layout_opens l indent x
  have hskip : skipBlanks (l.lineBreak indent ++ (layout l indent x ++ more)) = c :: (cs ++ more) := by
    rw [skipBlanks_append_blanks (l.blank_lineBreak indent), hx, List.cons_append,
      skipBlanks_nonblank hc.1]
  unfold nextItem
  cases first with
  | true =>
    simp only [↓reduceIte, List.nil_append]
    rw [hskip, hx, List.cons_append]
    split
    · contradiction
    · rename_i heq
      exact absurd (List.cons.inj heq).1 hc.2
    · rfl
    · rfl
  | false =>
    simp only [Bool.false_eq_true, ↓reduceIte, List.singleton_append]
    rw [skipBlanks_nonblank (by decide)]
    simp only
    rw [hskip, hx, List.cons_append]
    split
    · rename_i heq
      exact absurd (List.cons.inj heq).1 hc.2
    · contradiction
    · rfl

theorem nextKey_close (first : Bool) {bs : List Char} (hbs : bs.all isBlank = true) (rest : List Char) :
    nextKey first (bs ++ '\x7d' :: rest) = .ok (.done rest) := by
  unfold nextKey
  rw [skipBlanks_append_blanks hbs, skipBlanks_nonblank (by decide)]
  rfl

/-- A key is found where a layout puts one: first, or after a comma. -/
theorem nextKey_layout (l : Layout) (indent : Nat) (first : Bool) (k : String) (more : List Char) :
    nextKey first ((if first then [] else [',']) ++ (l.lineBreak indent ++ ((quote k).toList ++ more))) =
      .ok (.more (k.toList.flatMap escapeChar ++ '"' :: more)) := by
  have hskip : skipBlanks (l.lineBreak indent ++ ((quote k).toList ++ more)) =
      '"' :: (k.toList.flatMap escapeChar ++ '"' :: more) := by
    rw [skipBlanks_append_blanks (l.blank_lineBreak indent), toList_quote, List.cons_append,
      skipBlanks_nonblank (by decide)]
    simp
  unfold nextKey
  cases first with
  | true =>
    simp only [↓reduceIte, List.nil_append, hskip]
  | false =>
    simp only [Bool.false_eq_true, ↓reduceIte, List.singleton_append]
    rw [skipBlanks_nonblank (by decide)]
    simp only [hskip]

theorem colon_gap (l : Layout) (more : List Char) : colon (':' :: (l.gap ++ more)) = .ok (l.gap ++ more) := by
  unfold colon
  rw [skipBlanks_nonblank (by decide)]
  rfl

theorem ends_layoutItems (l : Layout) (indent : Nat) (xs : List Json) {bs : List Char}
    (hbs : bs.all isBlank = true) {c : Char} (hc : c = ']' ∨ c = '\x7d') (rest : List Char) :
    Ends (layoutItems l indent false xs ++ (bs ++ c :: rest)) := by
  cases xs with
  | nil => exact ends_blanks_close hbs hc rest
  | cons x xs => simpa [layoutItems, List.append_assoc] using ends_comma _

theorem ends_layoutFields (l : Layout) (indent : Nat) (fs : List (String × Json)) {bs : List Char}
    (hbs : bs.all isBlank = true) {c : Char} (hc : c = ']' ∨ c = '\x7d') (rest : List Char) :
    Ends (layoutFields l indent false fs ++ (bs ++ c :: rest)) := by
  cases fs with
  | nil => exact ends_blanks_close hbs hc rest
  | cons f fs =>
    obtain ⟨k, x⟩ := f
    simpa [layoutFields, List.append_assoc] using ends_comma _

/-! ## Values -/

theorem two_le_weight (v : Json) : 2 ≤ v.weight := by
  cases v <;> simp [weight]

/-- The schema `s` reads `v` back from every layout of it at nesting depth
`depth`, given more fuel than its weight, before any text that ends a value.
The one unit past the weight is what a value of any shape spends on first
finding out its shape. -/
def ReadsBack (s : Schema) (depth : Nat) (v : Json) : Prop :=
  ∀ (l : Layout) (indent fuel : Nat) (rest : List Char), v.weight < fuel → Ends rest →
    readAs fuel depth s (layout l indent v ++ rest) = .ok (v, rest)

theorem readAs_quote (fuel depth : Nat) (t : String) (rest : List Char) :
    readAs (fuel + 1) depth .text ((quote t).toList ++ rest) = .ok (.str t, rest) := by
  rw [toList_quote, List.cons_append]
  unfold readAs
  rw [skipBlanks_nonblank (by decide)]
  simp [scanString_escaped]

theorem readsBack_text (depth : Nat) (t : String) : ReadsBack .text depth (.str t) := by
  intro l indent fuel rest hfuel _
  obtain ⟨fuel, rfl⟩ : ∃ f, fuel = f + 1 := ⟨fuel - 1, by simp [weight] at hfuel; omega⟩
  exact readAs_quote fuel depth t rest

theorem readsBack_optional_text (depth : Nat) (t : String) : ReadsBack (.optional .text) depth (.str t) := by
  intro l indent fuel rest hfuel _
  obtain ⟨fuel, rfl⟩ : ∃ f, fuel = f + 2 := ⟨fuel - 2, by simp [weight] at hfuel; omega⟩
  have hread := readAs_quote fuel depth t rest
  simp only [layout]
  rw [toList_quote, List.cons_append] at hread ⊢
  unfold readAs
  rw [skipBlanks_nonblank (by decide)]
  simpa using hread

theorem readsBack_parsed {what : String} {accept : String → Option String} {t : String}
    (ht : accept t = none) (depth : Nat) : ReadsBack (.parsed what accept) depth (.str t) := by
  intro l indent fuel rest hfuel _
  obtain ⟨fuel, rfl⟩ : ∃ f, fuel = f + 1 := ⟨fuel - 1, by simp [weight] at hfuel; omega⟩
  simp only [layout]
  rw [toList_quote, List.cons_append]
  unfold readAs
  rw [skipBlanks_nonblank (by decide)]
  simp [scanString_escaped, ht]

theorem readsBack_optional_null (s : Schema) (depth : Nat) : ReadsBack (.optional s) depth .null := by
  intro l indent fuel rest hfuel _
  obtain ⟨fuel, rfl⟩ : ∃ f, fuel = f + 1 := ⟨fuel - 1, by simp [weight] at hfuel; omega⟩
  have htext : layout l indent .null ++ rest = 'n' :: ("ull".toList ++ rest) := rfl
  rw [htext]
  unfold readAs
  rw [skipBlanks_nonblank (by decide)]
  simp [ident]

theorem readsBack_choice (names : List String) (aliases : List (String × String)) (depth : Nat)
    {c : String} (hc : c ∈ names) : ReadsBack (.choice names aliases) depth (.str c) := by
  intro l indent fuel rest hfuel _
  obtain ⟨fuel, rfl⟩ : ∃ f, fuel = f + 1 := ⟨fuel - 1, by simp [weight] at hfuel; omega⟩
  simp only [layout]
  rw [toList_quote, List.cons_append]
  unfold readAs
  rw [skipBlanks_nonblank (by decide)]
  simp [scanString_escaped, Schema.choose, hc]

theorem readsBack_flag (depth : Nat) (b : Bool) : ReadsBack .flag depth (.bool b) := by
  intro l indent fuel rest hfuel _
  obtain ⟨fuel, rfl⟩ : ∃ f, fuel = f + 1 := ⟨fuel - 1, by simp [weight] at hfuel; omega⟩
  cases b with
  | true =>
    have htext : layout l indent (.bool true) ++ rest = 't' :: ("rue".toList ++ rest) := rfl
    rw [htext]
    unfold readAs
    rw [skipBlanks_nonblank (by decide)]
    simp [ident]
  | false =>
    have htext : layout l indent (.bool false) ++ rest = 'f' :: ("alse".toList ++ rest) := rfl
    rw [htext]
    unfold readAs
    rw [skipBlanks_nonblank (by decide)]
    simp [ident]

/-- An integer in range is read back against an unsigned schema of at most 64
bits. -/
theorem readsBack_unsigned {width : Nat} (hwidth : width ≤ 64) (name : String) (depth : Nat) {n : Nat}
    (hn : n < Nat.pow 2 width) : ReadsBack (.unsigned width name) depth (.num (.nat n)) := by
  intro l indent fuel rest hfuel hrest
  obtain ⟨fuel, rfl⟩ : ∃ f, fuel = f + 1 := ⟨fuel - 1, by simp [weight] at hfuel; omega⟩
  have h64 : n ≤ Json.u64Max := by
    have : Nat.pow 2 width ≤ Nat.pow 2 64 := Nat.pow_le_pow_right (by decide) hwidth
    simp only [Json.u64Max]
    omega
  have hscan := scanNumber_toString h64 hrest
  obtain ⟨c, cs, htext, hc⟩ := layout_opens l indent (.num (.nat n))
  have hdigit : c.isDigit = true := by
    have : c ∈ (toString n).toList := by
      change c ∈ (layout l indent (.num (.nat n)))
      rw [htext]
      exact List.mem_cons_self
    exact Nat.isDigit_of_mem_toDigits (by decide) (by decide) (Nat.toList_repr ▸ this)
  have hminus : c ≠ '-' := by
    rintro rfl
    simp at hdigit
  change readAs (fuel + 1) depth (.unsigned width name) ((toString n).toList ++ rest) = _
  change layout l indent (.num (.nat n)) = c :: cs at htext
  change (toString n).toList = c :: cs at htext
  have hpow : n < 2 ^ width := hn
  rw [htext, List.cons_append] at hscan
  rw [htext]
  unfold readAs
  rw [List.cons_append, skipBlanks_nonblank hc.1]
  simp [hdigit, hscan, unsignedValue, hpow]

/-! ## Arrays and dictionaries -/

theorem layout_arr (l : Layout) (indent : Nat) (xs : List Json) (rest : List Char) :
    ∃ bs, bs.all isBlank = true ∧
      layout l indent (.arr xs) ++ rest = '[' :: (layoutItems l (indent + 1) true xs ++ (bs ++ ']' :: rest)) := by
  cases xs with
  | nil => exact ⟨[], rfl, by simp [layout, layoutItems]⟩
  | cons x xs => exact ⟨l.lineBreak indent, l.blank_lineBreak indent, by simp [layout]⟩

theorem layout_obj (l : Layout) (indent : Nat) (fs : List (String × Json)) (rest : List Char) :
    ∃ bs, bs.all isBlank = true ∧
      layout l indent (.obj fs) ++ rest =
        '\x7b' :: (layoutFields l (indent + 1) true fs ++ (bs ++ '\x7d' :: rest)) := by
  cases fs with
  | nil => exact ⟨[], rfl, by simp [layout, layoutFields]⟩
  | cons f fs => exact ⟨l.lineBreak indent, l.blank_lineBreak indent, by simp [layout]⟩

/-- The items of an array are read back one after another, up to its closing
bracket. -/
theorem readItems_layout {s : Schema} {depth : Nat} {xs : List Json} (hxs : ∀ x ∈ xs, ReadsBack s depth x)
    (l : Layout) (indent : Nat) {bs : List Char} (hbs : bs.all isBlank = true) (rest : List Char) :
    ∀ (first : Bool) (acc : List Json) (fuel : Nat), weightItems xs < fuel →
      readItems fuel depth s first acc (layoutItems l indent first xs ++ (bs ++ ']' :: rest)) =
        .ok (acc.reverse ++ xs, rest) := by
  induction xs with
  | nil =>
    intro first acc fuel hfuel
    obtain ⟨fuel, rfl⟩ : ∃ f, fuel = f + 1 := ⟨fuel - 1, by omega⟩
    simp [readItems, layoutItems, nextItem_close first hbs rest]
  | cons x xs ih =>
    intro first acc fuel hfuel
    obtain ⟨fuel, rfl⟩ : ∃ f, fuel = f + 1 := ⟨fuel - 1, by omega⟩
    simp only [weightItems] at hfuel
    have hx := hxs x List.mem_cons_self l indent fuel _ (by omega)
      (ends_layoutItems l indent xs hbs (.inl rfl) rest)
    have hrest := ih (fun y hy => hxs y (List.mem_cons_of_mem x hy)) false (x :: acc) fuel (by omega)
    simp only [layoutItems, List.append_assoc]
    rw [readItems, nextItem_layout]
    simp [hx, hrest]

theorem readsBack_list {s : Schema} {depth : Nat} (hdepth : depth < maxDepth) {xs : List Json}
    (hxs : ∀ x ∈ xs, ReadsBack s (depth + 1) x) : ReadsBack (.list s) depth (.arr xs) := by
  intro l indent fuel rest hfuel _
  obtain ⟨fuel, rfl⟩ : ∃ f, fuel = f + 1 := ⟨fuel - 1, by simp [weight] at hfuel; omega⟩
  simp only [weight] at hfuel
  obtain ⟨bs, hbs, htext⟩ := layout_arr l indent xs rest
  have hitems := readItems_layout hxs l (indent + 1) hbs rest true [] fuel (by omega)
  rw [htext]
  unfold readAs
  rw [skipBlanks_nonblank (by decide)]
  simp [show ¬ maxDepth ≤ depth by omega, hitems]

/-- The members of an object are read back one after another, up to its closing
brace. -/
theorem readEntries_layout {s : Schema} {depth : Nat} {fs : List (String × Json)}
    (hfs : ∀ kv ∈ fs, ReadsBack s depth kv.2) (l : Layout) (indent : Nat) {bs : List Char}
    (hbs : bs.all isBlank = true) (rest : List Char) :
    ∀ (first : Bool) (acc : List (String × Json)) (fuel : Nat), weightFields fs < fuel →
      readEntries fuel depth s first acc (layoutFields l indent first fs ++ (bs ++ '\x7d' :: rest)) =
        .ok (acc.reverse ++ fs, rest) := by
  induction fs with
  | nil =>
    intro first acc fuel hfuel
    obtain ⟨fuel, rfl⟩ : ∃ f, fuel = f + 1 := ⟨fuel - 1, by omega⟩
    simp [readEntries, layoutFields, nextKey_close first hbs rest]
  | cons kv fs ih =>
    obtain ⟨k, v⟩ := kv
    intro first acc fuel hfuel
    simp only [weightFields] at hfuel
    have hweight := two_le_weight v
    obtain ⟨fuel, rfl⟩ : ∃ f, fuel = f + 2 := ⟨fuel - 2, by omega⟩
    have hv := hfs (k, v) List.mem_cons_self l indent (fuel + 1) _ (by dsimp only; omega)
      (ends_layoutFields l indent fs hbs (.inr rfl) rest)
    have hrest := ih (fun kv hkv => hfs kv (List.mem_cons_of_mem _ hkv)) false ((k, v) :: acc) (fuel + 1)
      (by omega)
    simp only [layoutFields, List.append_assoc, List.cons_append]
    rw [readEntries, nextKey_layout]
    simp [scanString_escaped, colon_gap, readAs_blanks l.blank_gap, hv, hrest]

theorem readsBack_dictionary {s : Schema} {depth : Nat} (hdepth : depth < maxDepth)
    {fs : List (String × Json)} (hfs : ∀ kv ∈ fs, ReadsBack s (depth + 1) kv.2)
    (hnormal : (Json.obj fs).normalize = .obj fs) : ReadsBack (.dictionary s) depth (.obj fs) := by
  intro l indent fuel rest hfuel _
  obtain ⟨fuel, rfl⟩ : ∃ f, fuel = f + 1 := ⟨fuel - 1, by simp [weight] at hfuel; omega⟩
  simp only [weight] at hfuel
  obtain ⟨bs, hbs, htext⟩ := layout_obj l indent fs rest
  have hentries := readEntries_layout hfs l (indent + 1) hbs rest true [] fuel (by omega)
  rw [htext]
  unfold readAs
  rw [skipBlanks_nonblank (by decide)]
  simp [show ¬ maxDepth ≤ depth by omega, hentries, hnormal]

/-! ## Records -/

/-- The fields of an object fit the members of a record: they are members, in
the order the members are declared, each read back by its member's schema, and
every member left out takes a default. -/
inductive FieldsFit (depth : Nat) : Members → List (String × Json) → Prop
  | nil : FieldsFit depth [] []
  | present {name : String} {presence : Presence} {s : Schema} {v : Json} {members : Members}
      {fs : List (String × Json)} :
      ReadsBack s depth v → FieldsFit depth members fs →
      FieldsFit depth ((name, presence, s) :: members) ((name, v) :: fs)
  | defaulted {name : String} {s : Schema} {members : Members} {fs : List (String × Json)} :
      FieldsFit depth members fs → FieldsFit depth ((name, .defaulted, s) :: members) fs

namespace FieldsFit

variable {depth : Nat} {members : Members} {fs : List (String × Json)}

theorem names_sublist (h : FieldsFit depth members fs) :
    (fs.map Prod.fst).Sublist (members.map Prod.fst) := by
  induction h with
  | nil => exact .slnil
  | present _ _ ih => exact ih.cons_cons _
  | defaulted _ ih => exact ih.cons _

/-- Each field is read by the member of its name. -/
theorem memberNamed (h : FieldsFit depth members fs) (hnodup : (members.map Prod.fst).Nodup) :
    ∀ kv ∈ fs, ∃ p s, Schema.memberNamed members kv.1 = some (p, s) ∧ ReadsBack s depth kv.2 := by
  induction h with
  | nil => simp
  | @present name presence s v members fs hv hfit ih =>
    rw [List.map_cons, List.nodup_cons] at hnodup
    rintro kv (_ | ⟨_, hkv⟩)
    · exact ⟨presence, s, by simp [Schema.memberNamed], hv⟩
    · obtain ⟨p, s', hnamed, hread⟩ := ih hnodup.2 kv hkv
      have hne : kv.1 ≠ name := fun heq =>
        hnodup.1 (heq ▸ hfit.names_sublist.subset (List.mem_map_of_mem hkv))
      refine ⟨p, s', ?_, hread⟩
      simpa [Schema.memberNamed, List.find?_cons, Ne.symm hne] using hnamed
  | @defaulted name s members fs hfit ih =>
    rw [List.map_cons, List.nodup_cons] at hnodup
    intro kv hkv
    obtain ⟨p, s', hnamed, hread⟩ := ih hnodup.2 kv hkv
    have hne : kv.1 ≠ name := fun heq =>
      hnodup.1 (heq ▸ hfit.names_sublist.subset (List.mem_map_of_mem hkv))
    refine ⟨p, s', ?_, hread⟩
    simpa [Schema.memberNamed, List.find?_cons, Ne.symm hne] using hnamed

/-- No member is missing once every field has been seen. -/
theorem absentMembers (h : FieldsFit depth members fs) (seen : List String)
    (hseen : ∀ kv ∈ fs, kv.1 ∈ seen) : Schema.absentMembers seen members = .ok [] := by
  induction h with
  | nil => rfl
  | @present name presence s v members fs _ _ ih =>
    have hname : seen.contains name = true := by simpa using hseen (name, v) List.mem_cons_self
    simp only [Schema.absentMembers, hname, ↓reduceIte]
    exact ih fun kv hkv => hseen kv (List.mem_cons_of_mem _ hkv)
  | @defaulted name s members fs _ ih =>
    simp only [Schema.absentMembers]
    split <;> exact ih hseen

/-- The fields found, looked up in declaration order, are the fields. -/
theorem inOrder (h : FieldsFit depth members fs) (hnodup : (members.map Prod.fst).Nodup)
    (found : List (String × Json)) (hfound : ∀ k ∈ members.map Prod.fst, found.lookup k = fs.lookup k) :
    Schema.inOrder members found = fs := by
  induction h with
  | nil => rfl
  | @present name presence s v members fs _ hfit ih =>
    rw [List.map_cons, List.nodup_cons] at hnodup
    have hname : found.lookup name = some v := by simpa using hfound name List.mem_cons_self
    have htail : ∀ k ∈ members.map Prod.fst, found.lookup k = fs.lookup k := by
      intro k hk
      have hne : (k == name) = false := by
        simpa using fun (heq : k = name) => hnodup.1 (heq ▸ hk)
      simpa [List.lookup_cons, hne] using hfound k (List.mem_cons_of_mem _ hk)
    simp only [Schema.inOrder, List.filterMap_cons, hname, Option.map_some] at ih ⊢
    rw [ih hnodup.2 htail]
  | @defaulted name s members fs hfit ih =>
    rw [List.map_cons, List.nodup_cons] at hnodup
    have hname : found.lookup name = none := by
      rw [hfound name List.mem_cons_self, List.lookup_eq_none_iff]
      intro kv hkv
      have hne : name ≠ kv.1 := fun heq =>
        hnodup.1 (hfit.names_sublist.subset (heq ▸ List.mem_map_of_mem hkv))
      simpa using hne
    have htail : ∀ k ∈ members.map Prod.fst, found.lookup k = fs.lookup k :=
      fun k hk => hfound k (List.mem_cons_of_mem _ hk)
    simp only [Schema.inOrder, List.filterMap_cons, hname, Option.map_none] at ih ⊢
    exact ih hnodup.2 htail

end FieldsFit

/-- With no key twice, looking up in the reversed list finds the same value. -/
theorem lookup_reverse {fs : List (String × Json)} (hnodup : (fs.map Prod.fst).Nodup) (k : String) :
    fs.reverse.lookup k = fs.lookup k := by
  induction fs with
  | nil => rfl
  | cons kv fs ih =>
    obtain ⟨k', v⟩ := kv
    rw [List.map_cons, List.nodup_cons] at hnodup
    rw [List.reverse_cons, List.lookup_append, ih hnodup.2]
    by_cases hk : k = k'
    · subst hk
      have hnone : fs.lookup k = none := by
        rw [List.lookup_eq_none_iff]
        intro kv hkv
        have hne : k ≠ kv.1 := fun heq => hnodup.1 (List.mem_map.mpr ⟨kv, hkv, heq.symm⟩)
        simpa using hne
      simp [hnone]
    · have hne : (k == k') = false := by simpa using hk
      simp [List.lookup_cons, hne]

/-- The members of a record are read back one after another, up to its closing
brace; `done` are the fields read so far. -/
theorem readMembers_layout {depth : Nat} {members : Members} {fs : List (String × Json)}
    (hnodup : (members.map Prod.fst).Nodup) (hfit : FieldsFit depth members fs)
    (l : Layout) (indent : Nat) {bs : List Char} (hbs : bs.all isBlank = true) (rest : List Char) :
    ∀ (todo done : List (String × Json)) (fuel : Nat), fs = done ++ todo → weightFields todo < fuel →
      readMembers fuel depth members done.isEmpty done.reverse
        (layoutFields l indent done.isEmpty todo ++ (bs ++ '\x7d' :: rest)) = .ok (.obj fs, rest) := by
  have hnames : (fs.map Prod.fst).Nodup := hfit.names_sublist.nodup hnodup
  intro todo
  induction todo with
  | nil =>
    intro done fuel hfs hfuel
    rw [List.append_nil] at hfs
    subst hfs
    obtain ⟨fuel, rfl⟩ : ∃ f, fuel = f + 1 := ⟨fuel - 1, by omega⟩
    have habsent : Schema.absentMembers (fs.reverse.map (·.1)) members = .ok [] :=
      hfit.absentMembers _ fun kv hkv => List.mem_map_of_mem (List.mem_reverse.mpr hkv)
    have horder := hfit.inOrder hnodup fs.reverse fun k _ => lookup_reverse hnames k
    rw [readMembers, layoutFields, List.nil_append, nextKey_close _ hbs rest]
    simp only [ok_bind]
    rw [habsent]
    simp [horder]
  | cons kv todo ih =>
    obtain ⟨k, v⟩ := kv
    intro done fuel hfs hfuel
    simp only [weightFields] at hfuel
    have hweight := two_le_weight v
    obtain ⟨fuel, rfl⟩ : ∃ f, fuel = f + 2 := ⟨fuel - 2, by omega⟩
    obtain ⟨p, s, hnamed, hread⟩ := hfit.memberNamed hnodup (k, v) (by simp [hfs])
    have hfresh : (done.reverse.map (·.1)).contains k = false := by
      rw [hfs, List.map_append, List.nodup_append] at hnames
      have hk : k ∉ done.map Prod.fst := fun hk => hnames.2.2 k hk k (by simp) rfl
      simpa using hk
    have hv := hread l indent (fuel + 1) _ (by dsimp only; omega)
      (ends_layoutFields l indent todo hbs (.inr rfl) rest)
    have hrest := ih (done ++ [(k, v)]) (fuel + 1) (by simp [hfs]) (by omega)
    have hmore : (done ++ [(k, v)]).isEmpty = false := by simp
    rw [hmore, List.reverse_append, List.reverse_singleton, List.singleton_append] at hrest
    simp only [layoutFields, List.append_assoc, List.cons_append]
    rw [readMembers, nextKey_layout]
    simp only [ok_bind]
    rw [scanString_escaped]
    simp only [ok_bind]
    rw [hnamed]
    simp only [hfresh]
    simp [colon_gap, readAs_blanks l.blank_gap, hv, hrest]

theorem readsBack_record {depth : Nat} (hdepth : depth < maxDepth) (name : String) {members : Members}
    (hnodup : (members.map Prod.fst).Nodup) {fs : List (String × Json)}
    (hfit : FieldsFit (depth + 1) members fs) : ReadsBack (.record name members) depth (.obj fs) := by
  intro l indent fuel rest hfuel _
  obtain ⟨fuel, rfl⟩ : ∃ f, fuel = f + 1 := ⟨fuel - 1, by simp [weight] at hfuel; omega⟩
  simp only [weight] at hfuel
  obtain ⟨bs, hbs, htext⟩ := layout_obj l indent fs rest
  have hmembers := readMembers_layout hnodup hfit l (indent + 1) hbs rest fs [] fuel (by simp) (by omega)
  simp only [List.isEmpty_nil, List.reverse_nil] at hmembers
  rw [htext]
  unfold readAs
  rw [skipBlanks_nonblank (by decide)]
  simp [show ¬ maxDepth ≤ depth by omega, hmembers]

/-! ## Whole texts -/

/-- A schema that reads a document back reads any layout of it as a whole text:
the reader's fuel, twice the length of the text, exceeds the document's weight. -/
theorem readText_layout {s : Schema} {v : Json} (hv : ReadsBack s 0 v) (l : Layout) {text : String}
    (htext : text.toList = layout l 0 v) : s.readText text = .ok v := by
  have hweight := weight_le_length l 0 v
  have hread := hv l 0 (2 * text.toList.length + 64) [] (by rw [htext]; omega) ends_nil
  rw [List.append_nil, ← htext] at hread
  simp [Schema.readText, hread, skipBlanks]

theorem readText_compact {s : Schema} {v : Json} (hv : ReadsBack s 0 v) : s.readText v.compact = .ok v :=
  readText_layout hv .compact (layout_compact 0 v).symm

end JsonText

end DenyPolicy
