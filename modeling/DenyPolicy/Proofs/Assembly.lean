import DenyPolicy.Proofs.Stages
/-!
# Assembling a policy set

Merging keeps the first rule of each name and refuses a later rule of that
name which differs from it.  When the names of the rules are pairwise distinct
there is nothing to drop or refuse, and merging returns the rules as they came
(`mergeRules_of_nodup`).

`Assembled` records what assembling leaves in a policy set: the scope, level
and requested frameworks it was given, the override record of the gate, the
merged rules when enforcing and none under an override, the summary of the
rules it carries, and the digest of all that.  The two lemmas after it say that
assembling succeeds exactly when merging does, and that it then gives such a
set.
-/

namespace DenyPolicy

theorem mergeRules_of_nodup (scope : Scope) (rules : List DenyRule) :
    ∀ merged : List DenyRule, ((merged ++ rules).map (·.name)).Nodup →
      mergeRules scope merged rules = .ok (merged ++ rules) := by
  induction rules with
  | nil =>
      intro merged _
      simp [mergeRules]
  | cons r rest ih =>
      intro merged hnodup
      have hfresh : merged.find? (·.name == r.name) = none := by
        rw [List.find?_eq_none]
        intro q hq hname
        rw [List.map_append, List.nodup_append] at hnodup
        exact hnodup.2.2 q.name (List.mem_map_of_mem hq) r.name (by simp)
          (by simpa using hname)
      have hnext : ((merged ++ [r] ++ rest).map (·.name)).Nodup := by simpa using hnodup
      rw [mergeRules, hfresh, ih (merged ++ [r]) hnext]
      simp

/-- What assembling leaves in a policy set from the rules `merged`. -/
structure Assembled (scope : Scope) (level : Level) (requested : FrameworkSet) (gate : Gate)
    (merged : List DenyRule) (set : PolicySet) : Prop where
  scope_eq : set.scope = scope
  level_eq : set.level = level
  requested_eq : set.requestedFrameworks = requested
  override_eq : set.emergencyOverride = OverrideRecord.ofGate gate
  rules_eq : set.rules = if gate.isOverridden then [] else merged
  enabled_eq : set.enabledFrameworks = if gate.isOverridden then FrameworkSet.empty else requested
  summary_eq : set.summary =
    ⟨set.rules.length, countByCategory set.rules, if gate.isOverridden then merged.length else 0⟩
  digest_eq : set.digest = { set with digest := "" }.computeDigest

variable {scope : Scope} {level : Level} {requested : FrameworkSet} {gate : Gate}
  {frameworkRules sharedRules : List DenyRule}

theorem assembled_of_assemble {set : PolicySet}
    (h : assemble scope level requested gate frameworkRules sharedRules = .ok set) :
    ∃ merged, mergeRules scope [] (frameworkRules ++ sharedRules) = .ok merged ∧
      Assembled scope level requested gate merged set := by
  obtain ⟨merged, hmerged, hset⟩ := bind_eq_ok_iff.mp h
  refine ⟨merged, hmerged, ?_⟩
  cases hgate : gate.isOverridden <;>
    simp only [hgate, Bool.false_eq_true, ite_false, ite_true, pure_eq_ok, Except.ok.injEq] at hset <;>
    subst hset <;>
    exact ⟨rfl, rfl, rfl, rfl, by simp [hgate], by simp [hgate], by simp [hgate], rfl⟩

theorem Assembled.ruleCount_eq {merged : List DenyRule} {set : PolicySet}
    (h : Assembled scope level requested gate merged set) :
    set.summary.ruleCount = set.rules.length := by
  rw [h.summary_eq]

theorem assemble_of_mergeRules {merged : List DenyRule}
    (h : mergeRules scope [] (frameworkRules ++ sharedRules) = .ok merged) :
    ∃ set, assemble scope level requested gate frameworkRules sharedRules = .ok set ∧
      Assembled scope level requested gate merged set := by
  have hok : ∃ set, assemble scope level requested gate frameworkRules sharedRules = .ok set := by
    unfold assemble
    rw [h]
    exact ⟨_, rfl⟩
  obtain ⟨set, hset⟩ := hok
  obtain ⟨merged', hmerged', hassembled⟩ := assembled_of_assemble hset
  rw [h, Except.ok.injEq] at hmerged'
  subst hmerged'
  exact ⟨set, hset, hassembled⟩

end DenyPolicy
