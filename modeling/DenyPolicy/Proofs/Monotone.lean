import DenyPolicy.Proofs.Rules
/-!
# Rules grow with what an input asks for

The activation of a control is a formula of `all` and `any` over atoms that each
ask for something to be present: a level or a classification at least as high,
a framework setting raised, an override switched on.  The one atom about a
number, the merchant level, asks for a level at most a bound, so it holds for
every lower level too.  An activation that holds in a context therefore holds in
every context that asks for more (`Activation.holds_of_weaker`, by induction on
the formula).  The level of an input joins the levels of its classification and
of each of its frameworks, so it only rises as frameworks are added and the
classification is raised (`Level.compute_le_compute`).

The main statement, `compile_rules_grow_with_demands`, compares the enforcing
sets of two inputs where the second asks for at least what the first does
(`CompilationInput.Weaker`): the second's level is at least the first's, and it
carries a rule of every name the first carries.
-/

namespace DenyPolicy

/-! ## Levels -/

namespace Level

theorem le_iff_rank {a b : Level} : a ≤ b ↔ a.rank ≤ b.rank := Iff.rfl

theorem rank_join (a b : Level) : (a.join b).rank = max a.rank b.rank := by
  unfold join
  split <;> omega

theorem le_foldl_join : ∀ {fs : List Framework} {l : Level},
    l ≤ fs.foldl (fun l f => l.join f.level) l
  | [], _ => le_iff_rank.mpr (Nat.le_refl _)
  | f :: fs, l => by
      have h := @le_foldl_join fs (l.join f.level)
      rw [le_iff_rank, rank_join] at h
      rw [List.foldl_cons, le_iff_rank]
      omega

theorem level_le_foldl_join : ∀ {fs : List Framework} {l : Level} {f : Framework}, f ∈ fs →
    f.level ≤ fs.foldl (fun l f => l.join f.level) l
  | g :: fs, l, f, hf => by
      rw [List.foldl_cons]
      rcases List.mem_cons.mp hf with rfl | hf
      · have h := @le_foldl_join fs (l.join f.level)
        rw [le_iff_rank, rank_join] at h
        rw [le_iff_rank]
        omega
      · exact level_le_foldl_join hf

theorem foldl_join_le : ∀ {fs : List Framework} {l u : Level}, l ≤ u → (∀ f ∈ fs, f.level ≤ u) →
    fs.foldl (fun l f => l.join f.level) l ≤ u
  | [], _, _, hl, _ => hl
  | f :: fs, l, u, hl, hfs => by
      rw [List.foldl_cons]
      apply foldl_join_le _ fun g hg => hfs g (List.mem_cons_of_mem f hg)
      have hf := hfs f List.mem_cons_self
      rw [le_iff_rank] at hl hf ⊢
      rw [rank_join]
      omega

theorem ofClassification_mono {c c' : Classification} (h : c ≤ c') :
    ofClassification c ≤ ofClassification c' := by
  revert h
  cases c <;> cases c' <;> decide

end Level

theorem FrameworkSet.mem_toList {s : FrameworkSet} {f : Framework} : f ∈ s.toList ↔ s.mem f = true := by
  cases f <;> simp [FrameworkSet.toList, Framework.all]

namespace Level

/-- The level of an input only rises as frameworks are added and the classification
is raised. -/
theorem compute_le_compute {s s' : FrameworkSet} {c c' : Classification}
    (hs : ∀ f, s.mem f = true → s'.mem f = true) (hc : c ≤ c') : compute s c ≤ compute s' c' := by
  unfold compute
  apply foldl_join_le
  · have hstart := @le_foldl_join s'.toList (ofClassification c')
    rw [le_iff_rank] at hstart ⊢
    exact Nat.le_trans (ofClassification_mono hc) hstart
  · intro f hf
    exact level_le_foldl_join (FrameworkSet.mem_toList.mpr (hs f (FrameworkSet.mem_toList.mp hf)))

end Level

/-! ## Inputs that ask for more -/

/-- Settings `p'` that raise every setting `p` raises, with a merchant level no
higher than that of `p`. -/
structure FrameworkParams.Weaker (p p' : FrameworkParams) : Prop where
  supplierControls : p.includeSupplierControls = true → p'.includeSupplierControls = true
  trustCriteria : ∀ c, p.trustCriteria.mem c = true → p'.trustCriteria.mem c = true
  merchantLevel : p'.merchantLevel ≤ p.merchantLevel
  phi : p.phi = true → p'.phi = true
  businessAssociate : p.businessAssociate = true → p'.businessAssociate = true
  controller : p.controller = true → p'.controller = true
  specialCategory : p.specialCategory = true → p'.specialCategory = true

/-- Overrides `o'` that switch on every control `o` switches on, and name an
approver group when `o` does. -/
structure Overrides.Weaker (o o' : Overrides) : Prop where
  enforceMfa : o.enforceMfa = true → o'.enforceMfa = true
  requireApproval : o.requireApproval = true → o'.requireApproval = true
  approverGroup : o.approverGroup.isSome = true → o'.approverGroup.isSome = true

/-- A context `ctx'` that asks for at least what `ctx` asks for. -/
structure Context.Weaker (ctx ctx' : Context) : Prop where
  level : ctx.level ≤ ctx'.level
  classification : ctx.classification ≤ ctx'.classification
  params : ctx.params.Weaker ctx'.params
  overrides : ctx.overrides.Weaker ctx'.overrides

/-- An input `i'` that asks for at least what `i` asks for: every framework of
`i`, a classification at least as high, and settings and overrides that switch
on at least what those of `i` switch on.  The other fields are free. -/
structure CompilationInput.Weaker (i i' : CompilationInput) : Prop where
  frameworks : ∀ f, i.frameworks.mem f = true → i'.frameworks.mem f = true
  classification : i.classification ≤ i'.classification
  params : i.params.Weaker i'.params
  overrides : i.overrides.Weaker i'.overrides

theorem CompilationInput.Weaker.context {i i' : CompilationInput} (h : i.Weaker i') :
    i.context.Weaker i'.context :=
  ⟨Level.compute_le_compute h.frameworks h.classification, h.classification, h.params, h.overrides⟩

/-! ## Activation -/

theorem ParamFlag.holds_of_weaker {p p' : FrameworkParams} (h : p.Weaker p') :
    ∀ flag : ParamFlag, flag.holds p = true → flag.holds p' = true
  | .supplierControls => h.supplierControls
  | .criterion c => h.trustCriteria c
  | .merchantLevelAtMost n => by
      have hlevel := h.merchantLevel
      simp only [ParamFlag.holds, decide_eq_true_eq]
      omega
  | .phi => h.phi
  | .businessAssociate => h.businessAssociate
  | .controller => h.controller
  | .specialCategory => h.specialCategory

theorem OverrideFlag.holds_of_weaker {o o' : Overrides} (h : o.Weaker o') :
    ∀ flag : OverrideFlag, flag.holds o = true → flag.holds o' = true
  | .enforceMfa => h.enforceMfa
  | .requireApproval => h.requireApproval

namespace Activation

variable {ctx ctx' : Context}

mutual
/-- An activation that holds in a context holds in every context that asks for
more. -/
theorem holds_of_weaker (h : ctx.Weaker ctx') :
    ∀ a : Activation, a.holds ctx = true → a.holds ctx' = true
  | .always, _ => rfl
  | .atLeast l, ha => by
      simp only [holds, decide_eq_true_eq] at ha ⊢
      exact Level.le_iff_rank.mpr (Nat.le_trans ha h.level)
  | .classification c, ha => by
      simp only [holds, decide_eq_true_eq] at ha ⊢
      exact Nat.le_trans ha h.classification
  | .param p, ha => ParamFlag.holds_of_weaker h.params p ha
  | .override o, ha => OverrideFlag.holds_of_weaker h.overrides o ha
  | .all as, ha => by
      rw [holds] at ha ⊢
      exact holdsAll_of_weaker h as ha
  | .any as, ha => by
      rw [holds] at ha ⊢
      exact holdsAny_of_weaker h as ha

theorem holdsAll_of_weaker (h : ctx.Weaker ctx') :
    ∀ as : List Activation, holdsAll ctx as = true → holdsAll ctx' as = true
  | [], _ => rfl
  | a :: rest, ha => by
      simp only [holdsAll, Bool.and_eq_true] at ha ⊢
      exact ⟨holds_of_weaker h a ha.1, holdsAll_of_weaker h rest ha.2⟩

theorem holdsAny_of_weaker (h : ctx.Weaker ctx') :
    ∀ as : List Activation, holdsAny ctx as = true → holdsAny ctx' as = true
  | [], ha => ha
  | a :: rest, ha => by
      simp only [holdsAny, Bool.or_eq_true] at ha ⊢
      exact ha.imp (holds_of_weaker h a) (holdsAny_of_weaker h rest)
end

end Activation

/-! ## The walk of the tables -/

theorem walkRule_name {cat : RuleCategory} {ctx : Context} {exceptions : List String} {c : Control}
    {r : DenyRule} (h : walkRule cat ctx exceptions c = some r) : r.name = cat.slug ++ "-" ++ c.id := by
  rw [← Control.instantiate_eq_walkRule] at h
  obtain ⟨-, -, -, rfl⟩ := Control.instantiate_eq_some_iff.mp h
  rfl

/-- A control that emits a rule in a context emits one of the same name in every
context that asks for more, whatever the exception principals. -/
theorem walkRule_of_weaker {ctx ctx' : Context} (h : ctx.Weaker ctx') {cat : RuleCategory}
    {exceptions : List String} (exceptions' : List String) {c : Control} {r : DenyRule}
    (hr : walkRule cat ctx exceptions c = some r) :
    ∃ r', walkRule cat ctx' exceptions' c = some r' ∧ r'.name = r.name := by
  have hname := walkRule_name hr
  rw [← Control.instantiate_eq_walkRule] at hr
  obtain ⟨hholds, denied, hdenied, -⟩ := Control.instantiate_eq_some_iff.mp hr
  have hdenied' : ∃ denied', Control.deniedPrincipal? ctx' c.denied = some denied' := by
    cases hd : c.denied with
    | everyone => exact ⟨_, rfl⟩
    | approverGroup =>
        rw [hd, Control.deniedPrincipal?, Option.map_eq_some_iff] at hdenied
        obtain ⟨g, hg, -⟩ := hdenied
        obtain ⟨g', hg'⟩ := Option.isSome_iff_exists.mp (h.overrides.approverGroup (by simp [hg]))
        exact ⟨"principalSet://goog/group/" ++ Text.trim g', by simp [Control.deniedPrincipal?, hg']⟩
  obtain ⟨denied', hdenied'⟩ := hdenied'
  refine ⟨_, (Control.instantiate_eq_walkRule cat ctx' exceptions' c).symm.trans
    (Control.instantiate_eq_some_iff.mpr ⟨Activation.holds_of_weaker h _ hholds, denied', hdenied', rfl⟩),
    ?_⟩
  rw [hname]
  rfl

theorem walkedTables_subset {s s' : FrameworkSet} (hs : ∀ f, s.mem f = true → s'.mem f = true) :
    walkedTables s ⊆ walkedTables s' := by
  intro t ht
  simp only [walkedTables, List.mem_append, List.mem_map, List.mem_filter] at ht ⊢
  rcases ht with ⟨f, ⟨hall, hf⟩, rfl⟩ | hshared
  · exact .inl ⟨f, ⟨hall, hs f hf⟩, rfl⟩
  · right
    by_cases hempty : s = FrameworkSet.empty
    · simp [hempty] at hshared
    · rw [if_neg hempty] at hshared
      have hne : s.toList ≠ [] := fun hnil =>
        hempty ((FrameworkSet.isEmpty_eq_true_iff s).mp (by simp [FrameworkSet.isEmpty, hnil]))
      obtain ⟨f, hf⟩ := List.exists_mem_of_ne_nil _ hne
      have hf' : f ∈ s'.toList := FrameworkSet.mem_toList.mpr (hs f (FrameworkSet.mem_toList.mp hf))
      have hempty' : s' ≠ FrameworkSet.empty := by
        rintro rfl
        have hmem := FrameworkSet.mem_toList.mp hf'
        cases f <;> simp [FrameworkSet.empty, FrameworkSet.mem] at hmem
      rw [if_neg hempty']
      exact hshared

theorem names_tableWalk_subset {s s' : FrameworkSet} {ctx ctx' : Context}
    (hs : ∀ f, s.mem f = true → s'.mem f = true) (hctx : ctx.Weaker ctx')
    (exceptions exceptions' : List String) :
    (tableWalk s ctx exceptions).map (·.name) ⊆ (tableWalk s' ctx' exceptions').map (·.name) := by
  intro name hname
  simp only [tableWalk, List.mem_map, List.mem_flatMap, List.mem_filterMap] at hname ⊢
  obtain ⟨r, ⟨t, ht, c, hc, hr⟩, rfl⟩ := hname
  obtain ⟨r', hr', hname'⟩ := walkRule_of_weaker hctx exceptions' hr
  exact ⟨r', ⟨t, walkedTables_subset hs ht, c, hc, hr'⟩, hname'⟩

/-! ## Compiled sets -/

theorem level_of_compile {i : CompilationInput} {o : Outcome} (h : i.compile = .ok o) :
    o.policySet.level = Level.compute i.frameworks i.classification := by
  obtain ⟨_, _, _, -, -, -, hassembled⟩ := compile_eq_ok_inv h
  exact hassembled.level_eq

/-- Two enforcing sets, the second compiled from an input that asks for at least
what the first's input asks for: the second's level is at least the first's, and
every rule name of the first is a rule name of the second.  So overrides can
switch controls on and never off, and raising the classification or enabling a
framework never removes a rule. -/
theorem compile_rules_grow_with_demands {i i' : CompilationInput} {o o' : Outcome}
    (hweaker : i.Weaker i') (h : i.compile = .ok o) (h' : i'.compile = .ok o')
    (henforcing : o.policySet.emergencyOverride.active = false)
    (henforcing' : o'.policySet.emergencyOverride.active = false) :
    o.policySet.level ≤ o'.policySet.level ∧ o.policySet.ruleNames ⊆ o'.policySet.ruleNames := by
  refine ⟨?_, ?_⟩
  · rw [level_of_compile h, level_of_compile h']
    exact Level.compute_le_compute hweaker.frameworks hweaker.classification
  · rw [PolicySet.ruleNames, PolicySet.ruleNames, rules_of_compile_enforcing h henforcing,
      rules_of_compile_enforcing h' henforcing', compiled_eq_tableWalk, compiled_eq_tableWalk]
    exact names_tableWalk_subset hweaker.frameworks hweaker.context _ _

/-- The ledger project, asked for SOC 2 as well and holding restricted data. -/
def ledgerRestrictedInput : CompilationInput :=
  { ledgerInput with frameworks := { iso27001 := true, soc2 := true }, classification := .restrictedData }

theorem ledger_rules_grow_when_restricted :
    ledgerInput.Weaker ledgerRestrictedInput ∧
      ∃ o o', ledgerInput.compile = .ok o ∧ ledgerRestrictedInput.compile = .ok o' ∧
        o.policySet.emergencyOverride.active = false ∧ o'.policySet.emergencyOverride.active = false ∧
        o.policySet.level ≤ o'.policySet.level ∧ o.policySet.ruleNames ⊆ o'.policySet.ruleNames := by
  have hweaker : ledgerInput.Weaker ledgerRestrictedInput :=
    ⟨fun f => by cases f <;> decide, by decide, ⟨id, fun _ => id, Nat.le_refl _, id, id, id, id⟩,
      ⟨id, id, id⟩⟩
  exact ⟨hweaker, _, _, rfl, rfl, rfl, rfl, compile_rules_grow_with_demands hweaker rfl rfl rfl rfl⟩

end DenyPolicy
