import DenyPolicy.Proofs.Assembly
/-!
# Merging rules, and what assembling guarantees

Merging keeps, of each name, the first rule that bears it, and is refused at the
first rule that differs from the first earlier rule of its name
(`mergeRules_eq_error_iff`).  Without such a rule it gives the rules with every
rule whose name came before removed, `List.eraseDupsBy` on names
(`mergeRules_of_conflictFree`).  The counts by category that a manifest keeps
are a map in increasing order of slug, every count positive, and each slug is
counted once per rule of its category (`mem_countByCategory_iff`).

The main statement, `assemble_contract`, is the assembler's contract: when it
refuses and with what, and, when it does not, each member of the policy set it
gives, read off the merged rules and the gate.
-/

namespace DenyPolicy

/-! ## Merging, read off the rules -/

def DenyRule.sameName (a b : DenyRule) : Bool := a.name == b.name

/-- A rule conflicts with the rules before it when the first of them bearing its
name differs from it. -/
def ConflictsWithFirst (earlier : List DenyRule) (r : DenyRule) : Prop :=
  ∃ q, earlier.find? (·.name == r.name) = some q ∧ q ≠ r

/-- No rule of `rules` conflicts with the rules before it, the rules `earlier`
coming first. -/
def ConflictFreeAfter (earlier rules : List DenyRule) : Prop :=
  ∀ pre r post, rules = pre ++ r :: post → ¬ ConflictsWithFirst (earlier ++ pre) r

/-- The ways to cut a list `x :: xs` before one of its elements: before `x`, or
after `x` and before an element of `xs`. -/
theorem exists_cons_eq_append_cons {α : Type} {x : α} {xs : List α} {P : List α → α → List α → Prop} :
    (∃ pre y post, x :: xs = pre ++ y :: post ∧ P pre y post) ↔
      P [] x xs ∨ ∃ pre y post, xs = pre ++ y :: post ∧ P (x :: pre) y post := by
  constructor
  · rintro ⟨pre, y, post, hcut, hP⟩
    rcases List.cons_eq_append_iff.mp hcut with ⟨rfl, hxs⟩ | ⟨pre', rfl, hxs⟩
    · obtain ⟨rfl, rfl⟩ := List.cons.inj hxs
      exact .inl hP
    · exact .inr ⟨pre', y, post, hxs, hP⟩
  · rintro (hP | ⟨pre, y, post, rfl, hP⟩)
    · exact ⟨[], x, xs, rfl, hP⟩
    · exact ⟨x :: pre, y, post, rfl, hP⟩

theorem conflictFreeAfter_nil (earlier : List DenyRule) : ConflictFreeAfter earlier [] := by
  intro pre r post h
  simp at h

theorem conflictFreeAfter_cons {earlier rest : List DenyRule} {r : DenyRule} :
    ConflictFreeAfter earlier (r :: rest) ↔
      ¬ ConflictsWithFirst earlier r ∧ ConflictFreeAfter (earlier ++ [r]) rest := by
  unfold ConflictFreeAfter
  constructor
  · intro h
    refine ⟨fun hr => h [] r rest rfl (by simpa using hr), fun pre r' post hrest hr' => ?_⟩
    exact h (r :: pre) r' post (by simp [hrest]) (by simpa using hr')
  · rintro ⟨hr, hrest⟩ pre r' post hcut
    rcases List.cons_eq_append_iff.mp hcut with ⟨rfl, hcons⟩ | ⟨pre', rfl, hpost⟩
    · obtain ⟨rfl, rfl⟩ := List.cons.inj hcons
      simpa using hr
    · simpa using hrest pre' r' post hpost

theorem eraseDupsBy_sublist {α : Type} (rel : α → α → Bool) :
    ∀ l : List α, (l.eraseDupsBy rel).Sublist l
  | [] => .slnil
  | a :: as => by
    rw [List.eraseDupsBy_cons]
    exact ((eraseDupsBy_sublist rel _).trans List.filter_sublist).cons_cons a
termination_by l => l.length
decreasing_by exact Nat.lt_succ_of_le (List.length_filter_le _ _)

theorem nodup_names_eraseDupsBy : ∀ rules : List DenyRule,
    ((rules.eraseDupsBy DenyRule.sameName).map (·.name)).Nodup
  | [] => .nil
  | r :: rest => by
    rw [List.eraseDupsBy_cons, List.map_cons, List.nodup_cons]
    refine ⟨fun hmem => ?_, nodup_names_eraseDupsBy _⟩
    obtain ⟨q, hq, hname⟩ := List.mem_map.mp hmem
    have hkept := (eraseDupsBy_sublist _ _).subset hq
    simp [DenyRule.sameName, hname] at hkept
termination_by rules => rules.length
decreasing_by exact Nat.lt_succ_of_le (List.length_filter_le _ _)

/-- Past a rule whose name the rules `acc` already bear, the first rule of each
name is the same with or without it. -/
theorem find?_append_cons_of_found {acc : List DenyRule} {r q : DenyRule}
    (hq : acc.find? (·.name == r.name) = some q) (rest : List DenyRule) (n : String) :
    (acc ++ r :: rest).find? (·.name == n) = (acc ++ rest).find? (·.name == n) := by
  rw [List.find?_append, List.find?_append]
  cases hacc : acc.find? (·.name == n) with
  | some found => rfl
  | none =>
      have hne : (r.name == n) = false := by
        have hmem := List.mem_of_find?_eq_some hq
        have hname : q.name = r.name := by simpa using List.find?_some hq
        have hnot := List.find?_eq_none.mp hacc q hmem
        simp only [beq_iff_eq] at hnot
        simpa [hname] using hnot
      simp [hne]

theorem conflictsWithFirst_append_cons_of_found {acc : List DenyRule} {r q : DenyRule}
    (hq : acc.find? (·.name == r.name) = some q) (rest : List DenyRule) (r' : DenyRule) :
    ConflictsWithFirst (acc ++ r :: rest) r' ↔ ConflictsWithFirst (acc ++ rest) r' := by
  unfold ConflictsWithFirst
  rw [find?_append_cons_of_found hq]

theorem conflictFreeAfter_append_cons_of_found {acc : List DenyRule} {r q : DenyRule}
    (hq : acc.find? (·.name == r.name) = some q) (rest : List DenyRule) :
    ConflictFreeAfter (acc ++ [r]) rest ↔ ConflictFreeAfter acc rest := by
  unfold ConflictFreeAfter
  refine forall_congr' fun pre => forall_congr' fun r' => forall_congr' fun post => ?_
  rw [List.append_assoc, List.singleton_append, conflictsWithFirst_append_cons_of_found hq]

variable (scope : Scope)

/-- Merging after the rules `acc` is refused exactly at the first rule that
conflicts with the rules before it. -/
theorem mergeRules_eq_error_iff {e : PolicyError} :
    ∀ {rules acc : List DenyRule}, mergeRules scope acc rules = .error e ↔
      ∃ pre r post, rules = pre ++ r :: post ∧ ConflictFreeAfter acc pre ∧
        ConflictsWithFirst (acc ++ pre) r ∧ e = .conflict scope.id r.name
  | [], acc => by simp [mergeRules]
  | r :: rest, acc => by
      rw [exists_cons_eq_append_cons]
      simp only [conflictFreeAfter_cons, List.append_nil]
      unfold mergeRules
      cases hfound : acc.find? (·.name == r.name) with
      | some q =>
          by_cases hsame : q = r
          · subst hsame
            have hnot : ¬ ConflictsWithFirst acc q := by
              rintro ⟨q', hq', hne⟩
              rw [hfound, Option.some.injEq] at hq'
              exact hne hq'.symm
            simp only [if_true, mergeRules_eq_error_iff, hnot, false_and, false_or,
              conflictFreeAfter_nil, not_false_eq_true, true_and,
              conflictFreeAfter_append_cons_of_found hfound,
              conflictsWithFirst_append_cons_of_found hfound]
          · have hconflict : ConflictsWithFirst acc r := ⟨q, hfound, hsame⟩
            simp [hsame, hconflict, conflictFreeAfter_nil, eq_comm]
      | none =>
          have hnot : ¬ ConflictsWithFirst acc r := by
            rintro ⟨q, hq, -⟩
            rw [hfound] at hq
            cases hq
          simp only [mergeRules_eq_error_iff, hnot, false_and, and_false, false_or, not_false_eq_true,
            true_and, List.append_assoc, List.singleton_append]

/-- Merging after the rules `acc` rules none of which conflicts with the rules
before it keeps `acc` and adds the first rule of each name not borne by `acc`. -/
theorem mergeRules_of_conflictFree :
    ∀ {rules acc : List DenyRule}, ConflictFreeAfter acc rules →
      mergeRules scope acc rules =
        .ok (acc ++ (rules.filter fun r => !acc.any (·.name == r.name)).eraseDupsBy DenyRule.sameName)
  | [], acc, _ => by simp [mergeRules]
  | r :: rest, acc, h => by
      obtain ⟨hr, hrest⟩ := conflictFreeAfter_cons.mp h
      unfold mergeRules
      cases hfound : acc.find? (·.name == r.name) with
      | some q =>
          have hsame : q = r := Classical.byContradiction fun hne => hr ⟨q, hfound, hne⟩
          subst hsame
          dsimp only
          have hborne : acc.any (·.name == q.name) = true :=
            List.any_eq_true.mpr ⟨q, List.mem_of_find?_eq_some hfound, beq_self_eq_true _⟩
          rw [if_pos rfl, mergeRules_of_conflictFree
            ((conflictFreeAfter_append_cons_of_found hfound rest).mp hrest)]
          simp [hborne]
      | none =>
          have hfresh : acc.any (·.name == r.name) = false := by
            rw [Bool.eq_false_iff]
            intro hany
            obtain ⟨q, hq, hname⟩ := List.any_eq_true.mp hany
            exact absurd hfound (List.find?_isSome.mpr ⟨q, hq, hname⟩ |> Option.isSome_iff_ne_none.mp)
          dsimp only
          rw [mergeRules_of_conflictFree hrest, List.filter_cons_of_pos (by simp [hfresh]),
            List.eraseDupsBy_cons, List.append_assoc, List.singleton_append]
          congr 4
          rw [List.filter_filter]
          refine List.filter_congr fun x _ => ?_
          by_cases hx : x.name = r.name
          · simp [hx, DenyRule.sameName]
          · simp [hx, DenyRule.sameName, Ne.symm hx]

/-! ## Counting rules by category -/

/-- A map of counts as a manifest keeps it: keys in increasing order, every count
positive. -/
structure CountMap (m : List (String × Nat)) : Prop where
  sorted : m.Pairwise (fun a b => a.1 < b.1)
  pos : ∀ kn ∈ m, 0 < kn.2

theorem string_lt_of_not_lt_of_ne {a b : String} (h : ¬ a < b) (hne : a ≠ b) : b < a :=
  Classical.byContradiction fun h' => hne (String.le_antisymm h' h)

section Counts

variable {key k : String}

theorem lookup_eq_none_of_lt : ∀ {m : List (String × Nat)}, (∀ kn ∈ m, k < kn.1) → m.lookup k = none
  | [], _ => rfl
  | (k', n) :: rest, h => by
      have hne : (k == k') = false := by simpa using String.ne_of_lt (h (k', n) List.mem_cons_self)
      rw [List.lookup_cons, hne]
      exact lookup_eq_none_of_lt fun kn hkn => h kn (List.mem_cons_of_mem _ hkn)

theorem keys_bumpCount : ∀ {m : List (String × Nat)} {x : String × Nat}, x ∈ bumpCount key m →
    x.1 = key ∨ x.1 ∈ m.map Prod.fst
  | [], x, hx => by simp_all [bumpCount]
  | (k', n) :: rest, x, hx => by
      unfold bumpCount at hx
      split at hx
      · simp at hx
        rcases hx with rfl | rfl | hx
        · exact .inl rfl
        · simp
        · exact .inr (List.mem_map_of_mem (List.mem_cons_of_mem _ hx))
      · split at hx
        · simp at hx
          rcases hx with rfl | hx
          · simp
          · exact .inr (List.mem_map_of_mem (List.mem_cons_of_mem _ hx))
        · rcases List.mem_cons.mp hx with rfl | hx
          · simp
          · rcases keys_bumpCount hx with h | h
            · exact .inl h
            · exact .inr (List.mem_cons_of_mem _ h)

theorem countMap_bumpCount : ∀ {m : List (String × Nat)}, CountMap m → CountMap (bumpCount key m)
  | [], _ => ⟨by simp [bumpCount], by simp [bumpCount]⟩
  | (k', n) :: rest, h => by
      have hhead := List.pairwise_cons.mp h.sorted
      have hrest : CountMap rest :=
        ⟨hhead.2, fun kn hkn => h.pos kn (List.mem_cons_of_mem _ hkn)⟩
      unfold bumpCount
      split
      · rename_i hlt
        refine ⟨List.Pairwise.cons (fun kn hkn => ?_) h.sorted, fun kn hkn => ?_⟩
        · rcases List.mem_cons.mp hkn with rfl | hkn
          · exact hlt
          · exact String.lt_trans hlt (hhead.1 kn hkn)
        · rcases List.mem_cons.mp hkn with rfl | hkn
          · exact Nat.one_pos
          · exact h.pos kn hkn
      · split
        · refine ⟨List.Pairwise.cons hhead.1 hhead.2, fun kn hkn => ?_⟩
          rcases List.mem_cons.mp hkn with rfl | hkn
          · exact Nat.succ_pos n
          · exact h.pos kn (List.mem_cons_of_mem _ hkn)
        · rename_i hnlt hne
          have hgt : k' < key := string_lt_of_not_lt_of_ne hnlt hne
          have hbumped : CountMap (bumpCount key rest) := countMap_bumpCount hrest
          refine ⟨List.Pairwise.cons (fun kn hkn => ?_) hbumped.sorted, fun kn hkn => ?_⟩
          · rcases keys_bumpCount hkn with hkey | hkey
            · exact hkey ▸ hgt
            · obtain ⟨kn', hkn', hfst⟩ := List.mem_map.mp hkey
              rw [← hfst]
              exact hhead.1 kn' hkn'
          · rcases List.mem_cons.mp hkn with rfl | hkn
            · exact h.pos _ List.mem_cons_self
            · exact hbumped.pos kn hkn

theorem lookup_bumpCount : ∀ {m : List (String × Nat)}, m.Pairwise (fun a b => a.1 < b.1) →
    ((bumpCount key m).lookup k).getD 0 = (m.lookup k).getD 0 + if k = key then 1 else 0
  | [], _ => by
      by_cases hk : k = key
      · simp [bumpCount, hk]
      · have hne : (k == key) = false := by simpa using hk
        simp [bumpCount, List.lookup_cons, hk, hne]
  | (k', n) :: rest, h => by
      have hhead := List.pairwise_cons.mp h
      unfold bumpCount
      split
      · rename_i hlt
        by_cases hk : k = key
        · subst hk
          have habsent : ((k', n) :: rest).lookup k = none := lookup_eq_none_of_lt fun kn hkn => by
            rcases List.mem_cons.mp hkn with rfl | hkn
            · exact hlt
            · exact String.lt_trans hlt (hhead.1 kn hkn)
          simp [habsent]
        · have hne : (k == key) = false := by simpa using hk
          simp [List.lookup_cons, hk, hne]
      · split
        · rename_i hnlt heq
          subst heq
          by_cases hk : k = key
          · subst hk
            simp
          · have hne : (k == key) = false := by simpa using hk
            simp [List.lookup_cons, hk, hne]
        · rename_i hnlt hne
          have hgt : k' < key := string_lt_of_not_lt_of_ne hnlt hne
          by_cases hk : k = k'
          · subst hk
            simp [String.ne_of_lt hgt]
          · have hne' : (k == k') = false := by simpa using hk
            simp only [List.lookup_cons, hne']
            exact lookup_bumpCount hhead.2

theorem mem_iff_lookup_of_sorted {n : Nat} : ∀ {m : List (String × Nat)},
    m.Pairwise (fun a b => a.1 < b.1) → ((k, n) ∈ m ↔ m.lookup k = some n)
  | [], _ => by simp
  | (k', n') :: rest, h => by
      have hhead := List.pairwise_cons.mp h
      by_cases hk : k = k'
      · subst hk
        have hnot : (k, n) ∉ rest := fun hmem => String.lt_irrefl k (hhead.1 _ hmem)
        simp [hnot, eq_comm]
      · have hne : (k == k') = false := by simpa using hk
        simp only [List.mem_cons, Prod.mk.injEq, hk, false_and, false_or, List.lookup_cons, hne]
        exact mem_iff_lookup_of_sorted hhead.2

variable (rules : List DenyRule)

theorem countMap_foldl_bumpCount :
    ∀ {m : List (String × Nat)}, CountMap m →
      CountMap (rules.foldl (fun m r => bumpCount r.category.slug m) m) := by
  induction rules with
  | nil => exact id
  | cons r rest ih => exact fun h => ih (countMap_bumpCount h)

/-- Counting rules after a map of counts adds, at each key, the number of rules of
that category. -/
theorem lookup_foldl_bumpCount :
    ∀ {m : List (String × Nat)}, CountMap m →
      ((rules.foldl (fun m r => bumpCount r.category.slug m) m).lookup k).getD 0 =
        (m.lookup k).getD 0 + (rules.filter (·.category.slug == k)).length := by
  induction rules with
  | nil => simp
  | cons r rest ih =>
      intro m h
      rw [List.foldl_cons, ih (countMap_bumpCount h), lookup_bumpCount h.sorted]
      by_cases hk : k = r.category.slug
      · simp [hk]
        omega
      · have hne : (r.category.slug == k) = false := by simpa using Ne.symm hk
        simp [hk, hne]

theorem countMap_countByCategory : CountMap (countByCategory rules) :=
  countMap_foldl_bumpCount rules ⟨.nil, by simp⟩

/-- The counts by category list each category slug with the number of rules of
that category, and no slug without rules. -/
theorem mem_countByCategory_iff {n : Nat} :
    (k, n) ∈ countByCategory rules ↔ 0 < n ∧ n = (rules.filter (·.category.slug == k)).length := by
  have hmap := countMap_countByCategory rules
  have hcount := lookup_foldl_bumpCount rules (k := k) (m := []) ⟨.nil, by simp⟩
  rw [mem_iff_lookup_of_sorted hmap.sorted]
  unfold countByCategory at hmap ⊢
  constructor
  · intro hlookup
    have hpos := hmap.pos (k, n) ((mem_iff_lookup_of_sorted hmap.sorted).mpr hlookup)
    rw [hlookup] at hcount
    exact ⟨hpos, by simpa using hcount⟩
  · rintro ⟨hpos, rfl⟩
    cases hlookup : (rules.foldl (fun m r => bumpCount r.category.slug m) []).lookup k with
    | none =>
        rw [hlookup] at hcount
        simp at hcount
        omega
    | some n' =>
        rw [hlookup] at hcount
        simpa using hcount

end Counts

/-! ## The assembler's contract -/

/-- No rule of a list conflicts with the rules before it. -/
def ConflictFree (rules : List DenyRule) : Prop := ConflictFreeAfter [] rules

/-- What a policy set assembled from the rules `rules` holds, with `merged` the
rules with every rule whose name came before removed: the scope, level and
requested frameworks it was given; when enforcing, the merged rules, the
requested frameworks enabled, nothing suppressed and no override; under an
override for a reason, no rules, no framework enabled, every merged rule
suppressed and the override with its reason; a rule count that is the number of
its rules, names that are pairwise distinct, counts by category listed in
increasing order of slug with each slug's number of rules, and the digest of its
content. -/
structure AssembledFrom (scope : Scope) (level : Level) (requested : FrameworkSet) (gate : Gate)
    (rules : List DenyRule) (p : PolicySet) : Prop where
  scope_eq : p.scope = scope
  level_eq : p.level = level
  requested_eq : p.requestedFrameworks = requested
  enforcing : gate = .enforcing →
    p.rules = rules.eraseDupsBy DenyRule.sameName ∧ p.enabledFrameworks = requested ∧
      p.summary.suppressedRuleCount = 0 ∧ p.emergencyOverride = ⟨false, none⟩
  overridden : ∀ reason, gate = .overridden reason →
    p.rules = [] ∧ p.enabledFrameworks = FrameworkSet.empty ∧
      p.summary.suppressedRuleCount = (rules.eraseDupsBy DenyRule.sameName).length ∧
      p.emergencyOverride = ⟨true, some reason⟩
  ruleCount_eq : p.summary.ruleCount = p.rules.length
  names_nodup : (p.rules.map (·.name)).Nodup
  byCategory_sorted : p.summary.rulesByCategory.Pairwise (fun a b => a.1 < b.1)
  mem_byCategory_iff : ∀ k n, (k, n) ∈ p.summary.rulesByCategory ↔
    0 < n ∧ n = (p.rules.filter (·.category.slug == k)).length
  digest_eq : p.digest = p.computeDigest

theorem Assembled.assembledFrom {level : Level} {requested : FrameworkSet} {gate : Gate}
    {rules : List DenyRule} {p : PolicySet}
    (h : Assembled scope level requested gate (rules.eraseDupsBy DenyRule.sameName) p) :
    AssembledFrom scope level requested gate rules p := by
  have hcounts : p.summary.rulesByCategory = countByCategory p.rules := by rw [h.summary_eq]
  refine ⟨h.scope_eq, h.level_eq, h.requested_eq, fun hgate => ?_, fun reason hgate => ?_,
    h.ruleCount_eq, ?_, hcounts ▸ (countMap_countByCategory p.rules).sorted,
    fun k n => hcounts ▸ mem_countByCategory_iff p.rules, h.digest_eq⟩
  · subst hgate
    simp [h.rules_eq, h.enabled_eq, h.summary_eq, h.override_eq, Gate.isOverridden,
      OverrideRecord.ofGate, Gate.reason?]
  · subst hgate
    simp [h.rules_eq, h.enabled_eq, h.summary_eq, h.override_eq, Gate.isOverridden,
      OverrideRecord.ofGate, Gate.reason?]
  · rw [h.rules_eq]
    split
    · exact .nil
    · exact nodup_names_eraseDupsBy rules

/-- Assembler postconditions.  Assembling is refused exactly at the first of the
framework rules, then the shared rules, that differs from the first earlier rule
of its name, and the refusal names the scope and that rule.  Without such a rule
the set is assembled from the rules with every rule whose name came before
removed: carried when enforcing, counted and withheld under an override, with
its counts and digest derived from the rules it carries. -/
theorem assemble_contract (level : Level) (requested : FrameworkSet) (gate : Gate)
    (frameworkRules sharedRules : List DenyRule) :
    (∀ e, assemble scope level requested gate frameworkRules sharedRules = .error e ↔
      ∃ pre r post, frameworkRules ++ sharedRules = pre ++ r :: post ∧ ConflictFree pre ∧
        ConflictsWithFirst pre r ∧ e = .conflict scope.id r.name) ∧
    (ConflictFree (frameworkRules ++ sharedRules) → ∃ p,
      assemble scope level requested gate frameworkRules sharedRules = .ok p ∧
        AssembledFrom scope level requested gate (frameworkRules ++ sharedRules) p) := by
  refine ⟨fun e => ?_, fun hfree => ?_⟩
  · have hbind : assemble scope level requested gate frameworkRules sharedRules = .error e ↔
        mergeRules scope [] (frameworkRules ++ sharedRules) = .error e := by
      unfold assemble
      cases mergeRules scope [] (frameworkRules ++ sharedRules) <;> simp
    rw [hbind, mergeRules_eq_error_iff]
    simp [ConflictFree]
  · have hmerged := mergeRules_of_conflictFree scope hfree
    rw [List.nil_append, List.filter_eq_self.mpr (by simp)] at hmerged
    obtain ⟨p, hp, hassembled⟩ :=
      @assemble_of_mergeRules scope level requested gate frameworkRules sharedRules _ hmerged
    exact ⟨p, hp, hassembled.assembledFrom scope⟩

/-- A rule of the ISO 27001 table of a project, named by its control. -/
def supplierReviewRule : DenyRule :=
  { name := "iso27001-a5-19", category := .framework .iso27001, controlId := "a5-19",
    description := "supplier access is reviewed", deniedPermissions := ["iam.googleapis.com/roles.update"],
    deniedPrincipals := [allPrincipals], exceptionPrincipals := ["principalSet://goog/group/sec@x.com"],
    condition := none }

/-- A rule repeated as it is raises no conflict; under an override the set carries
no rule and counts the repeated rule once among those withheld. -/
theorem repeated_rule_withheld_once :
    ConflictFree [supplierReviewRule, supplierReviewRule] ∧ ∃ p,
      assemble ⟨.project, "ledger-prod", "cloudresourcemanager.googleapis.com/projects/ledger-prod"⟩
          .medium { iso27001 := true } (.overridden "INC-7 regional outage")
          [supplierReviewRule, supplierReviewRule] [] = .ok p ∧
        AssembledFrom ⟨.project, "ledger-prod", "cloudresourcemanager.googleapis.com/projects/ledger-prod"⟩
          .medium { iso27001 := true } (.overridden "INC-7 regional outage")
          ([supplierReviewRule, supplierReviewRule] ++ []) p := by
  have hfree : ConflictFree [supplierReviewRule, supplierReviewRule] := by
    unfold ConflictFree
    rw [conflictFreeAfter_cons, conflictFreeAfter_cons]
    refine ⟨?_, ?_, conflictFreeAfter_nil _⟩ <;> simp [ConflictsWithFirst]
  exact ⟨hfree, (assemble_contract _ .medium { iso27001 := true } (.overridden "INC-7 regional outage")
    [supplierReviewRule, supplierReviewRule] []).2 hfree⟩

end DenyPolicy
