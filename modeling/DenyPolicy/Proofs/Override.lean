import DenyPolicy.Proofs.Precedence
/-!
# What the emergency override changes

A granted override withholds the rules of a scope and changes nothing else.  This
module compares the compile of an input whose override is granted with the
compile of the same input with its request withdrawn (`CompilationInput.enforcing`).
The two runs share every stage but the gate, and the gate changes three things:
the fail-closed rule no longer applies, the merged rules are counted as suppressed
and withheld, and no framework is enabled while the requested ones are recorded.

The main statement, `compile_override_withholds_only_rules`, follows an enforcing
run to its end: a success becomes a success with the same exceptions and an empty
set; a refusal other than a configuration error stays; and a refusal for want of a
break-glass group becomes a success unless a source is malformed, in which case
that source's validation error is raised.
-/

namespace DenyPolicy

/-! ## Checks that raise one kind of error -/

/-- A check that can only raise errors of the kind `kind` for the scope `scope`. -/
def RaisesOnly (kind : String → String → String → PolicyError) (scope : String)
    (check : Option PolicyError) : Prop :=
  ∀ e, check = some e → ∃ field message, e = kind scope field message

section RaisesOnly

variable {kind : String → String → String → PolicyError} {scope : String}

@[simp] theorem raisesOnly_none : RaisesOnly kind scope none := fun _ h => nomatch h

@[simp] theorem raisesOnly_failUnless {ok : Prop} [Decidable ok] (field message : String) :
    RaisesOnly kind scope (failUnless ok (kind scope field message)) := by
  intro e h
  by_cases hok : ok
  · rw [failUnless_of_pos hok] at h
    cases h
  · rw [failUnless_of_neg hok] at h
    exact ⟨field, message, (Option.some.inj h).symm⟩

theorem raisesOnly_firstFailure {checks : List (Option PolicyError)}
    (h : ∀ c ∈ checks, RaisesOnly kind scope c) : RaisesOnly kind scope (firstFailure checks) := by
  intro e he
  obtain ⟨c, hc, hce⟩ := List.exists_of_findSome?_eq_some he
  exact h c hc e hce

theorem eq_none_of_raisesOnly {c d : Option PolicyError} {e : PolicyError}
    (hc : RaisesOnly kind scope c) (h : c.or d = some e) (he : ∀ f m, e ≠ kind scope f m) :
    c = none := by
  cases c with
  | none => rfl
  | some c =>
      obtain ⟨f, m, rfl⟩ := hc c rfl
      exact absurd (Option.some.inj h).symm (he f m)

end RaisesOnly

theorem raisesOnly_scopeChecks (r : ScopeRef) :
    ∀ c ∈ scopeChecks r, RaisesOnly .validation r.id c := by
  unfold scopeChecks
  split <;> simp

theorem raisesOnly_paramChecks (scope : String) (p : FrameworkParams) :
    ∀ c ∈ paramChecks scope p, RaisesOnly .validation scope c := by
  simp [paramChecks]

theorem raisesOnly_overrideChecks (scope : String) (o : Overrides) :
    ∀ c ∈ overrideChecks scope o, RaisesOnly .validation scope c := by
  cases hgroup : o.approverGroup <;> simp [overrideChecks, hgroup]

theorem raisesOnly_sourceChecks (scope : String) (src : ExceptionSource) :
    ∀ c ∈ sourceChecks scope src, RaisesOnly .validation scope c := by
  cases src <;> simp [sourceChecks]

/-! ## The runs with and without the override -/

theorem resolveExceptions_overridden_of_ok {scope : String} {s : ExceptionSources}
    {overridden : Bool} {t : Instant} {r : Resolution}
    (h : resolveExceptions scope s overridden t = .ok r) :
    resolveExceptions scope s true t = .ok r := by
  obtain ⟨-, principals, expired, hsources, hr⟩ := resolveExceptions_eq_ok_iff.mp h
  exact resolveExceptions_eq_ok_iff.mpr ⟨.inr rfl, principals, expired, hsources, hr⟩

/-- An overridden set holds no rules, enables no framework, records the reason,
and counts the merged rules as suppressed. -/
theorem Assembled.of_overridden {scope : Scope} {level : Level} {requested : FrameworkSet}
    {reason : String} {merged : List DenyRule} {set : PolicySet}
    (h : Assembled scope level requested (.overridden reason) merged set) :
    set.rules = [] ∧ set.enabledFrameworks = FrameworkSet.empty ∧
      set.emergencyOverride = ⟨true, some reason⟩ ∧ set.summary = ⟨0, [], merged.length⟩ := by
  have hrules : set.rules = [] := h.rules_eq
  refine ⟨hrules, h.enabled_eq, h.override_eq, ?_⟩
  rw [h.summary_eq, hrules]
  rfl

namespace CompilationInput

def enforcing (i : CompilationInput) : CompilationInput :=
  { i with emergency := { i.emergency with active := false } }

variable {i : CompilationInput}

theorem raisesOnly_fieldChecks : ∀ c ∈ i.fieldChecks, RaisesOnly .validation i.scope.id c := by
  intro c hc
  simp only [fieldChecks, List.mem_append, List.mem_singleton] at hc
  rcases hc with ((hc | rfl) | hc) | hc
  · exact raisesOnly_scopeChecks i.scope c hc
  · exact raisesOnly_failUnless _ _
  · exact raisesOnly_paramChecks _ _ c hc
  · exact raisesOnly_overrideChecks _ _ c hc

theorem raisesOnly_exceptionChecks :
    ∀ c ∈ i.exceptionChecks, RaisesOnly .validation i.scope.id c := by
  simp only [exceptionChecks, List.mem_map]
  rintro _ ⟨src, -, rfl⟩
  exact raisesOnly_firstFailure (raisesOnly_sourceChecks _ src)

/-- An input fails first at its fields, then at its gate, then at its sources. -/
theorem firstFailure_checks :
    firstFailure i.checks = (firstFailure i.fieldChecks).or
      ((firstFailure i.gateChecks).or (firstFailure i.exceptionChecks)) := by
  rw [checks, firstFailure_append, firstFailure_append, Option.or_assoc]

theorem firstFailure_gateChecks_of_granted (hactive : i.emergency.active = true)
    (hreason : minReasonLength < (Text.trim i.emergency.reason).length) :
    firstFailure i.gateChecks = none := by
  have hlong : ¬ (Text.trim i.emergency.reason).length ≤ minReasonLength := by omega
  simp [gateChecks, failUnless, hactive, hlong]

theorem raisesOnly_gateChecks_enforcing :
    RaisesOnly .configuration i.scope.id (firstFailure i.enforcing.gateChecks) := by
  rw [gateChecks, firstFailure_cons, firstFailure_cons, firstFailure_nil, Option.or_none,
    failUnless_of_pos (by simp [enforcing]), Option.none_or]
  exact raisesOnly_failUnless _ _

theorem evaluationTime_of_fieldChecks (h : firstFailure i.fieldChecks = none) :
    ∃ t, i.evaluationTime = some t := by
  obtain ⟨⟨scope, t⟩, hchecked⟩ := refusal_eq_none_iff.mp ((refusal_checked i).trans h)
  exact ⟨t, (checked_eq_ok_iff.mp hchecked).2.1⟩

theorem firstFailure_exceptionChecks (t : Instant) :
    firstFailure i.exceptionChecks =
      i.sources.ordered.findSome? fun src => refusal (src.resolve i.scope.id t) := by
  simp only [exceptionChecks, firstFailure_map, refusal_resolve_source]

/-- Granting the override of an input whose enforcing compile succeeds gives a
success with the same exceptions, whose set is assembled under the override from
the rules of the enforcing set. -/
theorem compile_eq_ok_of_enforcing (hactive : i.emergency.active = true)
    (hreason : minReasonLength < (Text.trim i.emergency.reason).length) {o₀ : Outcome}
    (h : i.enforcing.compile = .ok o₀) :
    ∃ set, i.compile = .ok ⟨set, o₀.exceptions⟩ ∧
      Assembled o₀.policySet.scope o₀.policySet.level i.frameworks
        (.overridden (Text.trim i.emergency.reason)) o₀.policySet.rules set := by
  obtain ⟨scope, t, gate₀, hchecked, hgate₀, hexceptions, hassembled₀⟩ := compile_eq_ok_inv h
  have hid : scope.id = i.scope.id := Scope.id_of_resolve (checked_eq_ok_iff.mp hchecked).1
  have henforcing : gate₀.isOverridden = false := Gate.isOverridden_of_ofRequest hgate₀
  have hrules₀ := hassembled₀.rules_eq
  rw [henforcing, if_neg Bool.false_ne_true] at hrules₀
  rw [henforcing] at hexceptions
  obtain ⟨set, hset, hassembled⟩ := @assemble_of_mergeRules scope i.context.level i.frameworks
    (.overridden (Text.trim i.emergency.reason)) _ _ _
    (mergeRules_compiled i.frameworks i.context o₀.exceptions.principals scope)
  have hexceptions' : resolveExceptions scope.id i.sources true t = .ok o₀.exceptions := by
    rw [hid]
    exact resolveExceptions_overridden_of_ok hexceptions
  refine ⟨set, compile_eq_ok_iff.mpr ⟨scope, t, hchecked, release_eq_ok_iff.mpr
    ⟨_, _, set, Gate.ofRequest_of_active hactive hreason, hexceptions', hset, rfl⟩⟩, ?_⟩
  rw [hassembled₀.scope_eq, hassembled₀.level_eq, hrules₀]
  exact hassembled

/-- Granted, the override is refused first at the input's fields, then at its
sources. -/
theorem refusal_compile_of_granted (hactive : i.emergency.active = true)
    (hreason : minReasonLength < (Text.trim i.emergency.reason).length) :
    refusal i.compile = (firstFailure i.fieldChecks).or (firstFailure i.exceptionChecks) := by
  rw [refusal_compile, firstFailure_checks, firstFailure_gateChecks_of_granted hactive hreason,
    Option.none_or]

/-- With the request withdrawn, compiling is refused first at the input's fields,
then for want of a break-glass group, then at the sources. -/
theorem refusal_compile_enforcing :
    refusal i.enforcing.compile = (firstFailure i.fieldChecks).or
      ((firstFailure i.enforcing.gateChecks).or (firstFailure i.exceptionChecks)) := by
  rw [refusal_compile, firstFailure_checks]
  rfl

/-- A refusal of the enforcing run other than a configuration error is the
overridden run's refusal too. -/
theorem compile_eq_error_of_enforcing (hactive : i.emergency.active = true)
    (hreason : minReasonLength < (Text.trim i.emergency.reason).length) {e : PolicyError}
    (h : i.enforcing.compile = .error e) (hne : ∀ s f m, e ≠ .configuration s f m) :
    i.compile = .error e := by
  rw [← refusal_eq_some_iff, refusal_compile_enforcing] at h
  rw [← refusal_eq_some_iff, refusal_compile_of_granted hactive hreason]
  cases hfield : firstFailure i.fieldChecks with
  | some e' =>
      rw [hfield, Option.some_or] at h
      rw [Option.some_or]
      exact h
  | none =>
      rw [hfield, Option.none_or] at h
      rw [Option.none_or]
      rw [eq_none_of_raisesOnly raisesOnly_gateChecks_enforcing h (hne i.scope.id),
        Option.none_or] at h
      exact h

/-- Where the enforcing run is refused as misconfigured, every check of the input's
fields passed, and the overridden run is refused at the sources only. -/
theorem refusal_compile_of_misconfigured (hactive : i.emergency.active = true)
    (hreason : minReasonLength < (Text.trim i.emergency.reason).length) {s f m : String}
    (h : i.enforcing.compile = .error (.configuration s f m)) :
    firstFailure i.fieldChecks = none ∧ refusal i.compile = firstFailure i.exceptionChecks := by
  rw [← refusal_eq_some_iff, refusal_compile_enforcing] at h
  have hfield : firstFailure i.fieldChecks = none :=
    eq_none_of_raisesOnly (raisesOnly_firstFailure raisesOnly_fieldChecks) h
      fun _ _ hkind => PolicyError.noConfusion hkind
  refine ⟨hfield, ?_⟩
  rw [refusal_compile_of_granted hactive hreason, hfield, Option.none_or]

/-- An override granted for a reason longer than ten characters withholds the
rules and changes nothing else.  Against the same input with its request
withdrawn: an enforcing success becomes a success with the same exceptions,
scope and level, no rules, no enabled framework, the reason recorded, and the
enforcing rule count as the suppressed count; an enforcing refusal other than a
configuration error is the overridden refusal; and where enforcing is refused as
misconfigured, the override is refused exactly at the first source that does not
resolve, with that source's validation error. -/
theorem compile_override_withholds_only_rules (hactive : i.emergency.active = true)
    (hreason : minReasonLength < (Text.trim i.emergency.reason).length) :
    (∀ o₀, i.enforcing.compile = .ok o₀ → ∃ o, i.compile = .ok o ∧
        o.exceptions = o₀.exceptions ∧
        o.policySet.scope = o₀.policySet.scope ∧ o.policySet.level = o₀.policySet.level ∧
        o.policySet.rules = [] ∧ o.policySet.enabledFrameworks = FrameworkSet.empty ∧
        o.policySet.requestedFrameworks = i.frameworks ∧
        o.policySet.emergencyOverride = ⟨true, some (Text.trim i.emergency.reason)⟩ ∧
        o.policySet.summary = ⟨0, [], o₀.policySet.summary.ruleCount⟩) ∧
      (∀ e, i.enforcing.compile = .error e → (∀ s f m, e ≠ .configuration s f m) →
        i.compile = .error e) ∧
      (∀ s f m, i.enforcing.compile = .error (.configuration s f m) →
        ∃ t, i.evaluationTime = some t ∧
          refusal i.compile =
            i.sources.ordered.findSome? (fun src => refusal (src.resolve i.scope.id t)) ∧
          ∀ e, i.compile = .error e → ∃ field message, e = .validation i.scope.id field message) := by
  refine ⟨fun o₀ h => ?success, fun e h hne => compile_eq_error_of_enforcing hactive hreason h hne,
    fun s f m h => ?misconfigured⟩
  case success =>
    obtain ⟨set, hcompile, hassembled⟩ := compile_eq_ok_of_enforcing hactive hreason h
    obtain ⟨hrules, henabled, hoverride, hsummary⟩ := hassembled.of_overridden
    refine ⟨_, hcompile, rfl, hassembled.scope_eq, hassembled.level_eq, hrules, henabled,
      hassembled.requested_eq, hoverride, ?_⟩
    rw [hsummary, ruleCount_of_compile h]
  case misconfigured =>
    obtain ⟨hfield, hsources⟩ := refusal_compile_of_misconfigured hactive hreason h
    obtain ⟨t, ht⟩ := evaluationTime_of_fieldChecks hfield
    refine ⟨t, ht, hsources.trans (firstFailure_exceptionChecks t), fun e he => ?_⟩
    rw [← refusal_eq_some_iff, hsources] at he
    exact raisesOnly_firstFailure raisesOnly_exceptionChecks e he

end CompilationInput

def drillInput : CompilationInput :=
  { ledgerInput with emergency := ⟨true, "  quarterly incident drill  "⟩ }

theorem drill_withholds_ledger_rules :
    drillInput.emergency.active = true ∧
      minReasonLength < (Text.trim drillInput.emergency.reason).length ∧
      ∃ o₀ o, drillInput.enforcing.compile = .ok o₀ ∧ drillInput.compile = .ok o ∧
        o.policySet.rules = [] ∧ o.policySet.summary = ⟨0, [], o₀.policySet.summary.ruleCount⟩ ∧
        0 < o₀.policySet.summary.ruleCount := by
  have hreason : minReasonLength < (Text.trim drillInput.emergency.reason).length := by decide
  obtain ⟨o, ho, -, -, -, hrules, -, -, -, hsummary⟩ :=
    (CompilationInput.compile_override_withholds_only_rules rfl hreason).1 _ rfl
  exact ⟨rfl, hreason, _, o, rfl, ho, hrules, hsummary, by decide⟩

end DenyPolicy
