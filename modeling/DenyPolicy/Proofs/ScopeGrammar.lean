import DenyPolicy.Proofs.Stages
import DenyPolicy.Proofs.Text
/-!
# The grammar of scope ids

Each tier accepts the ids of its own grammar (`ScopeGrammar`): an organization
is a string of ASCII digits, a folder is `folders/` and such a string, and a
project is 6 to 30 characters (Unicode scalar values, not bytes), each a
lowercase ASCII letter, a digit or a hyphen.  Resolving accepts exactly these
ids, addresses each by its bare number or name in its tier's collection, and
refuses every other id on the field `scope.id`; a project whose length is out
of bounds is refused for its length before its characters are looked at.

No tier's collection holds a slash, so an address splits back into its
collection and its bare part: the address determines the tier and the id.  No
accepted address holds `%`, so writing each `/` as `%2F` loses nothing, and the
attachment point and the policy parent determine the address in turn.
-/

namespace DenyPolicy

def DigitString (s : List Char) : Prop := s ≠ [] ∧ ∀ c ∈ s, '0' ≤ c ∧ c ≤ '9'

def ProjectIdChar (c : Char) : Prop := ('a' ≤ c ∧ c ≤ 'z') ∨ ('0' ≤ c ∧ c ≤ '9') ∨ c = '-'

/-- The ids each tier accepts, with the bare number or name each one addresses. -/
inductive ScopeGrammar : Tier → String → String → Prop
  | organization {id : String} : DigitString id.toList → ScopeGrammar .organization id id
  | folder {n : String} : DigitString n.toList → ScopeGrammar .folder ("folders/" ++ n) n
  | project {id : String} : 6 ≤ id.toList.length → id.toList.length ≤ 30 →
      (∀ c ∈ id.toList, ProjectIdChar c) → ScopeGrammar .project id id

/-! ## The checks of each tier -/

theorem isNumeric_iff (s : String) : isNumeric s = true ↔ DigitString s.toList := by
  simp only [isNumeric, Bool.and_eq_true, Bool.not_eq_true', String.isEmpty_eq_false_iff, ne_eq,
    List.all_eq_true, Char.isDigit_iff_toNat, DigitString, Char.le_def, UInt32.le_iff_toNat_le,
    ← String.toList_eq_nil_iff]
  rfl

theorem isProjectChar_iff (c : Char) : isProjectChar c = true ↔ ProjectIdChar c := by
  simp [isProjectChar, ProjectIdChar, or_assoc]

theorem isPrefixOf_folders_iff (id : String) :
    "folders/".isPrefixOf id = true ↔ id = "folders/" ++ (id.drop 8).toString := by
  rw [String.isPrefixOf, String.startsWith_string_iff, ← String.toList_inj, String.toList_append,
    String.Slice.toString_eq, String.toList_copy_drop]
  constructor
  · rintro ⟨rest, hrest⟩
    rw [← hrest]
    rfl
  · intro h
    exact ⟨_, h.symm⟩

theorem drop_folders_append (n : String) : (("folders/" ++ n).drop 8).toString = n := by
  rw [← String.toList_inj, String.Slice.toString_eq, String.toList_copy_drop, String.toList_append]
  rfl

theorem bareId_eq_ok_iff {t : Tier} {id bare : String} :
    Scope.bareId t id = .ok bare ↔ ScopeGrammar t id bare := by
  cases t with
  | organization =>
    simp only [Scope.bareId]
    by_cases hnum : isNumeric id = true
    · simp only [hnum, if_true, Except.ok.injEq]
      constructor
      · rintro rfl
        exact .organization ((isNumeric_iff id).mp hnum)
      · rintro ⟨⟩
        rfl
    · simp only [hnum, Bool.false_eq_true, if_false, reduceCtorEq, false_iff]
      rintro ⟨hdigits⟩
      exact hnum ((isNumeric_iff id).mpr hdigits)
  | folder =>
    simp only [Scope.bareId]
    by_cases hid : "folders/".isPrefixOf id = true ∧ isNumeric (id.drop 8).toString = true
    · simp only [hid, and_self, if_true, Except.ok.injEq]
      obtain ⟨hlead, hnum⟩ := hid
      constructor
      · rintro rfl
        have hgrammar := ScopeGrammar.folder ((isNumeric_iff _).mp hnum)
        rwa [← (isPrefixOf_folders_iff id).mp hlead] at hgrammar
      · rintro ⟨⟩
        rw [drop_folders_append]
    · rw [if_neg hid]
      simp only [reduceCtorEq, false_iff]
      intro hgrammar
      cases hgrammar with
      | folder hdigits =>
        apply hid
        rw [isPrefixOf_folders_iff, drop_folders_append, isNumeric_iff]
        exact ⟨rfl, hdigits⟩
  | project =>
    simp only [Scope.bareId, ← String.length_toList]
    by_cases hlen : id.toList.length < 6 ∨ 30 < id.toList.length
    · rw [if_pos hlen]
      simp only [reduceCtorEq, false_iff]
      rintro ⟨hlo, hhi, -⟩
      omega
    · rw [if_neg hlen]
      by_cases hchars : id.toList.all isProjectChar = true
      · rw [if_pos hchars, Except.ok.injEq]
        constructor
        · rintro rfl
          exact .project (by omega) (by omega) fun c hc =>
            (isProjectChar_iff c).mp (List.all_eq_true.mp hchars c hc)
        · rintro ⟨⟩
          rfl
      · rw [if_neg hchars]
        simp only [reduceCtorEq, false_iff]
        intro hgrammar
        cases hgrammar with
        | project _ _ hall =>
          exact hchars (List.all_eq_true.mpr fun c hc => (isProjectChar_iff c).mpr (hall c hc))

/-- Every refusal names the raw id and the field `scope.id`. -/
theorem bareId_eq_error {t : Tier} {id : String} {e : PolicyError} (h : Scope.bareId t id = .error e) :
    ∃ msg, e = .validation id "scope.id" msg := by
  cases t with
  | organization =>
    simp only [Scope.bareId] at h
    split at h
    · cases h
    · cases h
      exact ⟨_, rfl⟩
  | folder =>
    simp only [Scope.bareId] at h
    split at h
    · cases h
    · cases h
      exact ⟨_, rfl⟩
  | project =>
    simp only [Scope.bareId] at h
    split at h
    · cases h
      exact ⟨_, rfl⟩
    · split at h
      · cases h
      · cases h
        exact ⟨_, rfl⟩

theorem bareId_project_length {id : String} (h : id.toList.length < 6 ∨ 30 < id.toList.length) :
    Scope.bareId .project id = .error (.validation id "scope.id"
      ("project id must be 6-30 characters, got " ++ toString id.toList.length)) := by
  simp only [Scope.bareId, ← String.length_toList, h, if_true]
  rfl

/-! ## Addresses -/

theorem resolve_eq_ok_iff {t : Tier} {id : String} {s : Scope} :
    Scope.resolve t id = .ok s ↔ ∃ bare, ScopeGrammar t id bare ∧
      s = ⟨t, id, "cloudresourcemanager.googleapis.com/" ++ t.collection ++ "/" ++ bare⟩ := by
  rw [Scope.resolve, bind_eq_ok_iff]
  simp only [bareId_eq_ok_iff, pure_eq_ok, Except.ok.injEq, resourceManager]
  constructor
  · rintro ⟨bare, hbare, rfl⟩
    exact ⟨bare, hbare, rfl⟩
  · rintro ⟨bare, hbare, rfl⟩
    exact ⟨bare, hbare, rfl⟩

theorem percent_not_mem_bare {t : Tier} {id bare : String} (h : ScopeGrammar t id bare) :
    '%' ∉ bare.toList := by
  cases h with
  | organization hdigits => exact fun hc => by simpa using hdigits.2 _ hc
  | folder hdigits => exact fun hc => by simpa using hdigits.2 _ hc
  | project _ _ hchars =>
    intro hc
    rcases hchars _ hc with h | h | h <;> simp at h

theorem id_of_scopeGrammar {t : Tier} {id bare : String} (h : ScopeGrammar t id bare) :
    id = if t = .folder then "folders/" ++ bare else bare := by
  cases h <;> rfl

/-- Two texts each ended by a character they do not hold otherwise, then
followed by more, are equal when they agree up to that character. -/
theorem append_cons_inj_of_not_mem {c : Char} :
    ∀ {a b x y : List Char}, c ∉ a → c ∉ b → a ++ c :: x = b ++ c :: y → a = b ∧ x = y
  | [], [], _, _, _, _, h => ⟨rfl, by simpa using h⟩
  | [], d :: b, _, _, _, hb, h => absurd (by simp at h; exact h.1 ▸ List.mem_cons_self) hb
  | d :: a, [], _, _, ha, _, h => absurd (by simp at h; exact h.1 ▸ List.mem_cons_self) ha
  | d :: a, d' :: b, _, _, ha, hb, h => by
      simp only [List.cons_append, List.cons.injEq] at h
      obtain ⟨rfl, h⟩ := h
      obtain ⟨rfl, rfl⟩ := append_cons_inj_of_not_mem (fun hc => ha (List.mem_cons_of_mem d hc))
        (fun hc => hb (List.mem_cons_of_mem d hc)) h
      exact ⟨rfl, rfl⟩

theorem collection_injective {t t' : Tier} (h : t.collection = t'.collection) : t = t' := by
  cases t <;> cases t' <;> first | rfl | exact absurd h (by decide)

/-- An accepted address splits back at the slash after its collection, which no
collection holds, so it determines the tier and the id. -/
theorem eq_of_resolve_address {t t' : Tier} {id id' : String} {s s' : Scope}
    (hs : Scope.resolve t id = .ok s) (hs' : Scope.resolve t' id' = .ok s')
    (haddr : s.canonicalAddress = s'.canonicalAddress) : t = t' ∧ id = id' := by
  obtain ⟨bare, hgrammar, rfl⟩ := resolve_eq_ok_iff.mp hs
  obtain ⟨bare', hgrammar', rfl⟩ := resolve_eq_ok_iff.mp hs'
  have hslash : ∀ u : Tier, '/' ∉ u.collection.toList := by
    intro u
    cases u <;> decide
  rw [← String.toList_inj] at haddr
  simp only [String.toList_append, List.append_assoc, List.append_cancel_left_eq] at haddr
  obtain ⟨hcoll, hbare⟩ := append_cons_inj_of_not_mem (hslash t) (hslash t') haddr
  have ht := collection_injective (String.toList_inj.mp hcoll)
  subst ht
  have hb := String.toList_inj.mp hbare
  subst hb
  exact ⟨rfl, (id_of_scopeGrammar hgrammar).trans (id_of_scopeGrammar hgrammar').symm⟩

/-- Writing each `/` as `%2F` loses nothing in a text without `%`. -/
theorem flatMap_escape_injective :
    ∀ {xs ys : List Char}, '%' ∉ xs → '%' ∉ ys →
      (xs.flatMap fun d => if d = '/' then "%2F".toList else [d]) =
        (ys.flatMap fun d => if d = '/' then "%2F".toList else [d]) → xs = ys
  | [], [], _, _, _ => rfl
  | [], y :: ys, _, _, h => by
      rw [List.flatMap_cons] at h
      split at h <;> simp at h
  | x :: xs, [], _, _, h => by
      rw [List.flatMap_cons] at h
      split at h <;> simp at h
  | x :: xs, y :: ys, hx, hy, h => by
      rw [List.flatMap_cons, List.flatMap_cons] at h
      have hx' : x ≠ '%' := fun hc => hx (hc ▸ List.mem_cons_self)
      have hy' : y ≠ '%' := fun hc => hy (hc ▸ List.mem_cons_self)
      have hrest : ∀ {zs : List Char} {z : Char}, '%' ∉ z :: zs → '%' ∉ zs :=
        fun hz hc => hz (List.mem_cons_of_mem _ hc)
      by_cases hxs : x = '/' <;> by_cases hys : y = '/'
      · subst hxs hys
        simp only [if_true] at h
        rw [flatMap_escape_injective (hrest hx) (hrest hy) (List.append_cancel_left h)]
      · simp [hxs, hys] at h
        exact absurd h.1.symm hy'
      · simp [hxs, hys] at h
        exact absurd h.1 hx'
      · simp only [hxs, hys, if_false, List.singleton_append, List.cons.injEq] at h
        rw [h.1, flatMap_escape_injective (hrest hx) (hrest hy) h.2]

theorem percent_not_mem_of_resolve {t : Tier} {id : String} {s : Scope} (h : Scope.resolve t id = .ok s) :
    '%' ∉ s.canonicalAddress.toList := by
  obtain ⟨bare, hbare, rfl⟩ := resolve_eq_ok_iff.mp h
  simp only [String.toList_append, List.mem_append, not_or]
  exact ⟨⟨⟨by decide, by cases t <;> decide⟩, by decide⟩, percent_not_mem_bare hbare⟩

theorem attachmentPoint_inj {s s' : Scope} (h : '%' ∉ s.canonicalAddress.toList)
    (h' : '%' ∉ s'.canonicalAddress.toList) (heq : s.attachmentPoint = s'.attachmentPoint) :
    s.canonicalAddress = s'.canonicalAddress := by
  rw [Scope.attachmentPoint, Scope.attachmentPoint, ← String.toList_inj, Text.toList_replaceChar,
    Text.toList_replaceChar] at heq
  exact String.toList_inj.mp (flatMap_escape_injective h h' heq)

theorem policyParent_inj {s s' : Scope} (h : s.policyParent = s'.policyParent) :
    s.attachmentPoint = s'.attachmentPoint := by
  rw [Scope.policyParent, Scope.policyParent, ← String.toList_inj] at h
  simp only [String.toList_append, List.append_cancel_left_eq, List.append_cancel_right_eq] at h
  exact String.toList_inj.mp h

/-! ## Resolution -/

/-- Resolving a scope accepts exactly the ids of its tier's grammar.  An accepted
id gets the address of its bare number or name in the tier's collection; every
refusal is a validation error of the raw id on the field `scope.id`, and a
project of the wrong length is refused for its length in characters before its
characters are checked.  On accepted ids the address determines the tier and
the id; it holds no `%`, so the attachment point, where each `/` is written
`%2F`, and the policy parent built from it determine them too. -/
theorem resolve_accepts_grammar :
    (∀ t id s, Scope.resolve t id = .ok s ↔ ∃ bare, ScopeGrammar t id bare ∧
      s = ⟨t, id, "cloudresourcemanager.googleapis.com/" ++ t.collection ++ "/" ++ bare⟩) ∧
    (∀ t id e, Scope.resolve t id = .error e → ∃ msg, e = .validation id "scope.id" msg) ∧
    (∀ id, id.toList.length < 6 ∨ 30 < id.toList.length →
      Scope.resolve .project id = .error (.validation id "scope.id"
        ("project id must be 6-30 characters, got " ++ toString id.toList.length))) ∧
    ∀ t id s t' id' s', Scope.resolve t id = .ok s → Scope.resolve t' id' = .ok s' →
      '%' ∉ s.canonicalAddress.toList ∧
      (s.canonicalAddress = s'.canonicalAddress → t = t' ∧ id = id') ∧
      (s.attachmentPoint = s'.attachmentPoint → t = t' ∧ id = id') ∧
      (s.policyParent = s'.policyParent → t = t' ∧ id = id') := by
  refine ⟨fun t id s => resolve_eq_ok_iff, ?_, ?_, ?_⟩
  · intro t id e h
    rw [Scope.resolve] at h
    cases hbare : Scope.bareId t id with
    | error e' =>
      rw [hbare] at h
      cases h
      exact bareId_eq_error hbare
    | ok bare => simp [hbare] at h
  · intro id h
    rw [Scope.resolve, bareId_project_length h]
    rfl
  · intro t id s t' id' s' hs hs'
    have hsame := eq_of_resolve_address hs hs'
    have hattach : s.attachmentPoint = s'.attachmentPoint → t = t' ∧ id = id' := fun h =>
      hsame (attachmentPoint_inj (percent_not_mem_of_resolve hs) (percent_not_mem_of_resolve hs') h)
    exact ⟨percent_not_mem_of_resolve hs, hsame, hattach, fun h => hattach (policyParent_inj h)⟩

theorem ledger_scope_accepts_grammar :
    Scope.resolve .project "ledger-prod" =
        .ok ⟨.project, "ledger-prod", "cloudresourcemanager.googleapis.com/projects/ledger-prod"⟩ ∧
      Scope.resolve .folder "folders/42" =
        .ok ⟨.folder, "folders/42", "cloudresourcemanager.googleapis.com/folders/42"⟩ ∧
      Scope.resolve .project "ab" =
        .error (.validation "ab" "scope.id" "project id must be 6-30 characters, got 2") ∧
      ∀ s s', Scope.resolve .project "ledger-prod" = .ok s → Scope.resolve .folder "folders/42" = .ok s' →
        s.policyParent ≠ s'.policyParent := by
  obtain ⟨hgrammar, -, hlength, hinj⟩ := resolve_accepts_grammar
  have hchars : ∀ c ∈ "ledger-prod".toList, ProjectIdChar c := fun c hc =>
    (isProjectChar_iff c).mp (List.all_eq_true.mp (rfl : "ledger-prod".toList.all isProjectChar = true) c hc)
  have hfolder : ScopeGrammar .folder "folders/42" "42" := by
    simpa using ScopeGrammar.folder (n := "42") ((isNumeric_iff "42").mp rfl)
  refine ⟨(hgrammar _ _ _).mpr ⟨_, .project (by decide) (by decide) hchars, rfl⟩,
    (hgrammar _ _ _).mpr ⟨_, hfolder, rfl⟩, hlength "ab" (.inl (by decide)), fun s s' hs hs' hparent => ?_⟩
  exact absurd ((hinj _ _ _ _ _ _ hs hs').2.2.2 hparent).1 (by decide)

end DenyPolicy
