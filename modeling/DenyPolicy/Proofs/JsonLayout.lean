import DenyPolicy.Schema.Text
/-!
# Layouts of JSON text

The compact and the indented text of a document differ only in blanks: the
indented one opens every item and member on a line of its own and puts a blank
after each colon.  `Json.layout` writes a document under a `Layout` that says
what opens a line and what follows a colon, so that a reader, which skips
blanks, is reasoned about once for both texts (`layout_compact`,
`layout_indented`).

Items and members are written with the comma before each one but the first, the
way a reader meets them.  The weight of a document bounds the fuel a reader
spends on it, and is at most twice the length of any layout of it.
-/

namespace DenyPolicy

namespace Json

/-- What separates the tokens of a document: the text that opens a line at a
depth, and the text after the colon of a member, both JSON blanks. -/
structure Layout where
  lineBreak : Nat → List Char
  gap : List Char
  blank_lineBreak : ∀ depth, (lineBreak depth).all JsonText.isBlank = true
  blank_gap : gap.all JsonText.isBlank = true

/-- Nothing between tokens. -/
def Layout.compact : Layout := ⟨fun _ => [], [], fun _ => rfl, rfl⟩

def Layout.indented : Layout where
  lineBreak depth := (newline depth).toList
  gap := [' ']
  blank_lineBreak depth := by
    simp [newline, String.toList_append, String.toList_ofList, List.all_replicate, JsonText.isBlank]
  blank_gap := rfl

mutual
/-- The text of a value under a layout, its first line at depth `depth`. -/
def layout (l : Layout) (depth : Nat) : Json → List Char
  | .null => "null".toList
  | .bool true => "true".toList
  | .bool false => "false".toList
  | .num n => n.render.toList
  | .str s => (quote s).toList
  | .arr [] => ['[', ']']
  | .arr (x :: xs) => '[' :: layoutItems l (depth + 1) true (x :: xs) ++ l.lineBreak depth ++ [']']
  | .obj [] => ['\x7b', '\x7d']
  | .obj (f :: fs) =>
    '\x7b' :: layoutFields l (depth + 1) true (f :: fs) ++ l.lineBreak depth ++ ['\x7d']

def layoutItems (l : Layout) (depth : Nat) (first : Bool) : List Json → List Char
  | [] => []
  | x :: xs =>
    (if first then [] else [',']) ++ l.lineBreak depth ++ layout l depth x ++
      layoutItems l depth false xs

def layoutFields (l : Layout) (depth : Nat) (first : Bool) : List (String × Json) → List Char
  | [] => []
  | (k, x) :: fs =>
    (if first then [] else [',']) ++ l.lineBreak depth ++ (quote k).toList ++ ':' :: l.gap ++
      layout l depth x ++ layoutFields l depth false fs
end

/-! ## The two layouts of the printer -/

@[simp] theorem Layout.compact_lineBreak (depth : Nat) : Layout.compact.lineBreak depth = [] := rfl

@[simp] theorem Layout.compact_gap : Layout.compact.gap = [] := rfl

@[simp] theorem Layout.indented_lineBreak (depth : Nat) :
    Layout.indented.lineBreak depth = (newline depth).toList := rfl

@[simp] theorem Layout.indented_gap : Layout.indented.gap = [' '] := rfl

mutual
theorem layout_compact (depth : Nat) : ∀ v : Json, layout .compact depth v = v.compact.toList
  | .null => rfl
  | .bool true => rfl
  | .bool false => rfl
  | .num _ => rfl
  | .str _ => rfl
  | .arr [] => rfl
  | .arr (x :: xs) => by
    rw [layout, layoutItems_compact]
    simp [compact, String.toList_append]
  | .obj [] => rfl
  | .obj (f :: fs) => by
    rw [layout, layoutFields_compact]
    simp [compact, String.toList_append]

theorem layoutItems_compact (depth : Nat) :
    ∀ (first : Bool) (xs : List Json), layoutItems .compact depth first xs =
      (if first || xs.isEmpty then [] else [',']) ++ (compactItems xs).toList
  | _, [] => by simp [layoutItems, compactItems]
  | first, [x] => by
    rw [layoutItems, layout_compact depth x]
    cases first <;> simp [layoutItems, compactItems]
  | first, x :: y :: ys => by
    rw [layoutItems, layout_compact depth x, layoutItems_compact depth false (y :: ys)]
    cases first <;> simp [compactItems, String.toList_append]

theorem layoutFields_compact (depth : Nat) :
    ∀ (first : Bool) (fs : List (String × Json)), layoutFields .compact depth first fs =
      (if first || fs.isEmpty then [] else [',']) ++ (compactFields fs).toList
  | _, [] => by simp [layoutFields, compactFields]
  | first, [(k, x)] => by
    rw [layoutFields, layout_compact depth x]
    cases first <;> simp [layoutFields, compactFields, String.toList_append]
  | first, (k, x) :: f :: fs => by
    rw [layoutFields, layout_compact depth x, layoutFields_compact depth false (f :: fs)]
    cases first <;> simp [compactFields, String.toList_append]
end

mutual
theorem layout_indented (depth : Nat) : ∀ v : Json, layout .indented depth v = (prettyAt depth v).toList
  | .null => rfl
  | .bool true => rfl
  | .bool false => rfl
  | .num _ => rfl
  | .str _ => rfl
  | .arr [] => by simp [layout, prettyAt]
  | .arr (x :: xs) => by
    rw [layout, layoutItems_indented]
    simp [prettyAt, String.toList_append]
  | .obj [] => by simp [layout, prettyAt]
  | .obj (f :: fs) => by
    rw [layout, layoutFields_indented]
    simp [prettyAt, String.toList_append]

theorem layoutItems_indented (depth : Nat) :
    ∀ (first : Bool) (xs : List Json), layoutItems .indented depth first xs =
      (if first || xs.isEmpty then [] else [',']) ++ (prettyItems depth xs).toList
  | _, [] => by simp [layoutItems, prettyItems]
  | first, [x] => by
    rw [layoutItems, layout_indented depth x]
    cases first <;> simp [layoutItems, prettyItems, String.toList_append]
  | first, x :: y :: ys => by
    rw [layoutItems, layout_indented depth x, layoutItems_indented depth false (y :: ys)]
    cases first <;> simp [prettyItems, String.toList_append]

theorem layoutFields_indented (depth : Nat) :
    ∀ (first : Bool) (fs : List (String × Json)), layoutFields .indented depth first fs =
      (if first || fs.isEmpty then [] else [',']) ++ (prettyFields depth fs).toList
  | _, [] => by simp [layoutFields, prettyFields]
  | first, [(k, x)] => by
    rw [layoutFields, layout_indented depth x]
    cases first <;> simp [layoutFields, prettyFields, String.toList_append]
  | first, (k, x) :: f :: fs => by
    rw [layoutFields, layout_indented depth x, layoutFields_indented depth false (f :: fs)]
    cases first <;> simp [prettyFields, String.toList_append]
end

theorem layoutFields_append (l : Layout) (depth : Nat) (first : Bool) (fs gs : List (String × Json)) :
    layoutFields l depth first (fs ++ gs) =
      layoutFields l depth first fs ++ layoutFields l depth (first && fs.isEmpty) gs := by
  induction fs generalizing first with
  | nil => simp [layoutFields]
  | cons f fs ih =>
    obtain ⟨k, x⟩ := f
    simp [layoutFields, ih]

theorem layout_obj_of_ne_nil (l : Layout) (depth : Nat) {fs : List (String × Json)} (hfs : fs ≠ []) :
    layout l depth (.obj fs) = '\x7b' :: layoutFields l (depth + 1) true fs ++ l.lineBreak depth ++ ['\x7d'] := by
  obtain ⟨f, fs, rfl⟩ := List.exists_cons_of_ne_nil hfs
  rw [layout]

/-- Appending the same members to two objects with members and one compact text
keeps their compact texts equal. -/
theorem compact_obj_append {fs gs : List (String × Json)} (hfs : fs ≠ []) (hgs : gs ≠ [])
    (h : (Json.obj fs).compact = (Json.obj gs).compact) (extra : List (String × Json)) :
    (Json.obj (fs ++ extra)).compact = (Json.obj (gs ++ extra)).compact := by
  have hfields : layoutFields .compact 1 true fs = layoutFields .compact 1 true gs := by
    have htext := congrArg String.toList h
    rw [← layout_compact 0, ← layout_compact 0, layout_obj_of_ne_nil _ _ hfs,
      layout_obj_of_ne_nil _ _ hgs] at htext
    simpa using htext
  rw [← String.toList_inj, ← layout_compact 0, ← layout_compact 0, layout_obj_of_ne_nil _ _ (by simp [hfs]),
    layout_obj_of_ne_nil _ _ (by simp [hgs]), layoutFields_append, layoutFields_append, hfields]
  simp [List.isEmpty_eq_false_iff.mpr hfs, List.isEmpty_eq_false_iff.mpr hgs]

/-! ## How a layout starts -/

def Opens (c : Char) : Prop := JsonText.isBlank c = false ∧ c ≠ ']'

def isNumberChar (c : Char) : Bool := c.isDigit || c == '-' || c == '+' || c == '.' || c == 'e'

theorem opens_of_isNumberChar {c : Char} (h : isNumberChar c = true) : Opens c := by
  simp only [isNumberChar, Bool.or_eq_true, beq_iff_eq] at h
  rcases h with (((h | rfl) | rfl) | rfl) | rfl
  · constructor
    · revert h
      unfold Char.isDigit JsonText.isBlank
      intro h
      simp only [Bool.or_eq_false_iff, decide_eq_false_iff_not]
      refine ⟨⟨⟨?_, ?_⟩, ?_⟩, ?_⟩ <;> rintro rfl <;> simp at h
    · rintro rfl
      simp at h
  all_goals exact ⟨by decide, by decide⟩

theorem all_isNumberChar_toString_nat (n : Nat) : (toString n).toList.all isNumberChar = true := by
  rw [List.all_eq_true]
  intro c hc
  have := Nat.isDigit_of_mem_toDigits (by decide) (by decide) (Nat.toList_repr ▸ hc)
  simp [isNumberChar, this]

theorem all_isNumberChar_toString_int (i : Int) : (toString i).toList.all isNumberChar = true := by
  cases i with
  | ofNat n => exact all_isNumberChar_toString_nat n
  | negSucc n =>
    change ("-" ++ toString (n + 1)).toList.all isNumberChar = true
    rw [String.toList_append, List.all_append, all_isNumberChar_toString_nat]
    rfl

theorem all_isNumberChar_zeros (n : Nat) : (zeros n).toList.all isNumberChar = true := by
  simp [zeros, List.all_replicate, isNumberChar]

theorem all_isNumberChar_take {L : List Char} (h : L.all isNumberChar = true) (n : Nat) : (L.take n).all isNumberChar = true :=
  List.all_eq_true.mpr fun c hc => List.all_eq_true.mp h c (List.mem_of_mem_take hc)

theorem all_isNumberChar_drop {L : List Char} (h : L.all isNumberChar = true) (n : Nat) : (L.drop n).all isNumberChar = true :=
  List.all_eq_true.mpr fun c hc => List.all_eq_true.mp h c (List.mem_of_mem_drop hc)

theorem renderFloat_numberChars (negative : Bool) (digits : Nat) (exponent : Int) :
    (renderFloat negative digits exponent).toList ≠ [] ∧
      (renderFloat negative digits exponent).toList.all isNumberChar = true := by
  unfold renderFloat renderFloatWith
  generalize trimDecimal digits exponent = dk
  obtain ⟨d, k⟩ := dk
  have hsign : ∀ body : String, body.toList ≠ [] ∧ body.toList.all isNumberChar = true →
      ((if negative then "-" else "") ++ body).toList ≠ [] ∧
        ((if negative then "-" else "") ++ body).toList.all isNumberChar = true := by
    rintro body ⟨hne, hall⟩
    cases negative <;> simp_all [String.toList_append, isNumberChar]
  have htext := all_isNumberChar_toString_nat d
  dsimp only
  split
  · exact hsign "0.0" ⟨by simp, rfl⟩
  apply hsign
  have hexp := all_isNumberChar_toString_int (((toString d).length : Int) + k - 1)
  split
  · refine ⟨by simp [String.toList_append], ?_⟩
    simp only [String.toList_append, List.all_append, htext, all_isNumberChar_zeros, Bool.true_and]
    rfl
  split
  · refine ⟨by simp [String.toList_append], ?_⟩
    simp only [String.toList_append, String.toList_ofList, List.all_append, all_isNumberChar_take htext,
      all_isNumberChar_drop htext, Bool.true_and, Bool.and_true]
    rfl
  split
  · refine ⟨by simp [String.toList_append], ?_⟩
    simp only [String.toList_append, List.all_append, htext, all_isNumberChar_zeros, Bool.and_true]
    rfl
  have hmark : (if 0 < ((toString d).length : Int) + k - 1 then "e" ++ "+" else "e").toList ≠ [] ∧
      (if 0 < ((toString d).length : Int) + k - 1 then "e" ++ "+" else "e").toList.all
        isNumberChar = true := by
    split <;> exact ⟨by simp, rfl⟩
  refine ⟨?_, ?_⟩
  · simp only [String.toList_append]
    exact List.append_ne_nil_of_left_ne_nil (List.append_ne_nil_of_right_ne_nil _ hmark.1) _
  simp only [String.toList_append, List.all_append, hexp, hmark.2, Bool.and_true]
  split
  · rename_i c hc
    rw [hc] at htext
    simpa using htext
  · rename_i c rest _ hc
    rw [hc] at htext
    simp only [List.all_cons, Bool.and_eq_true] at htext
    simp only [String.toList_ofList, List.all_cons, htext.1, htext.2, Bool.true_and, Bool.and_true]
    rfl
  · rfl

theorem Numeral.render_numberChars (n : Numeral) :
    n.render.toList ≠ [] ∧ n.render.toList.all isNumberChar = true := by
  cases n with
  | nat n => exact ⟨by simp [Numeral.render], all_isNumberChar_toString_nat n⟩
  | negInt n =>
    refine ⟨by simp [Numeral.render, String.toList_append], ?_⟩
    simp only [Numeral.render, String.toList_append, List.all_append, all_isNumberChar_toString_nat,
      Bool.and_true]
    rfl
  | float negative v => exact renderFloat_numberChars negative _ _

/-- Every layout of a value opens with a character that opens a value. -/
theorem layout_opens (l : Layout) (depth : Nat) (v : Json) :
    ∃ c cs, layout l depth v = c :: cs ∧ Opens c := by
  cases v with
  | null => exact ⟨'n', _, rfl, by decide, by decide⟩
  | bool b => cases b <;> exact ⟨_, _, rfl, by decide, by decide⟩
  | num n =>
    obtain ⟨hne, hall⟩ := Numeral.render_numberChars n
    cases htext : n.render.toList with
    | nil => exact absurd htext hne
    | cons c cs =>
      rw [htext, List.all_cons, Bool.and_eq_true] at hall
      exact ⟨c, cs, htext, opens_of_isNumberChar hall.1⟩
  | str s =>
    exact ⟨'"', s.toList.flatMap escapeChar ++ ['"'], by simp [layout, quote], by decide, by decide⟩
  | arr xs => cases xs <;> exact ⟨'[', _, rfl, by decide, by decide⟩
  | obj fs => cases fs <;> exact ⟨'\x7b', _, rfl, by decide, by decide⟩

/-! ## Weight -/

mutual
/-- A bound on the fuel a reader spends on a value: two for a scalar, and for an
array or object two more than its entries, each weighing one more than its
value. -/
def weight : Json → Nat
  | .null | .bool _ | .num _ | .str _ => 2
  | .arr xs => weightItems xs + 2
  | .obj fs => weightFields fs + 2

def weightItems : List Json → Nat
  | [] => 0
  | x :: xs => x.weight + weightItems xs + 1

def weightFields : List (String × Json) → Nat
  | [] => 0
  | (_, x) :: fs => x.weight + weightFields fs + 1
end

theorem one_le_length_layout (l : Layout) (depth : Nat) (v : Json) : 1 ≤ (layout l depth v).length := by
  obtain ⟨c, cs, h, -⟩ := layout_opens l depth v
  simp [h]

mutual
theorem weight_le_length (l : Layout) (depth : Nat) :
    ∀ v : Json, v.weight ≤ 2 * (layout l depth v).length
  | .null | .bool true | .bool false | .arr [] | .obj [] => by
    simp [weight, weightItems, weightFields, layout]
  | .str s => by
    have := one_le_length_layout l depth (.str s)
    simp only [weight]
    omega
  | .num n => by
    have := one_le_length_layout l depth (.num n)
    simp only [weight]
    omega
  | .arr (x :: xs) => by
    have := weightItems_le_length l (depth + 1) true (x :: xs)
    simp only [weight, layout, List.length_cons, List.length_append]
    simp at this
    omega
  | .obj (f :: fs) => by
    have := weightFields_le_length l (depth + 1) true (f :: fs)
    simp only [weight, layout, List.length_cons, List.length_append]
    simp at this
    omega

theorem weightItems_le_length (l : Layout) (depth : Nat) :
    ∀ (first : Bool) (xs : List Json),
      weightItems xs ≤ 2 * (layoutItems l depth first xs).length + (if first then 1 else 0)
  | _, [] => by simp [weightItems]
  | first, x :: xs => by
    have hx := weight_le_length l depth x
    have hxs := weightItems_le_length l depth false xs
    cases first <;> simp [weightItems, layoutItems] at hxs ⊢ <;> omega

theorem weightFields_le_length (l : Layout) (depth : Nat) :
    ∀ (first : Bool) (fs : List (String × Json)),
      weightFields fs ≤ 2 * (layoutFields l depth first fs).length + (if first then 1 else 0)
  | _, [] => by simp [weightFields]
  | first, (k, x) :: fs => by
    have hx := weight_le_length l depth x
    have hfs := weightFields_le_length l depth false fs
    cases first <;> simp [weightFields, layoutFields] at hfs ⊢ <;> omega
end

end Json

end DenyPolicy
