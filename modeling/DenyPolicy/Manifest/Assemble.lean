import DenyPolicy.Manifest.Json
/-!
# Assembling a policy set

The framework rules, then the shared rules, are merged: a rule whose name was
seen before is dropped when it is identical to the earlier one, and refuses
the scope when it differs.  Under an emergency override the merged rules are
counted and withheld, and no framework counts as enabled.
-/

namespace DenyPolicy

/-- Merges rules in order, keeping the first of each name. -/
def mergeRules (scope : Scope) : List DenyRule → List DenyRule → Except PolicyError (List DenyRule)
  | merged, [] => .ok merged
  | merged, r :: rest =>
    match merged.find? (·.name == r.name) with
    | some earlier =>
      if earlier = r then mergeRules scope merged rest
      else .error (.conflict scope.id r.name)
    | none => mergeRules scope (merged ++ [r]) rest

/-- The policy set of a scope from its level, requested frameworks, gate and rules. -/
def assemble (scope : Scope) (level : Level) (requested : FrameworkSet) (gate : Gate)
    (frameworkRules sharedRules : List DenyRule) : Except PolicyError PolicySet := do
  let merged ← mergeRules scope [] (frameworkRules ++ sharedRules)
  let (rules, enabled, suppressed) :=
    if gate.isOverridden then (([] : List DenyRule), FrameworkSet.empty, merged.length)
    else (merged, requested, 0)
  let unsigned : PolicySet :=
    { scope, level, enabledFrameworks := enabled, requestedFrameworks := requested
      emergencyOverride := OverrideRecord.ofGate gate, rules
      summary := ⟨rules.length, countByCategory rules, suppressed⟩, digest := "" }
  pure { unsigned with digest := unsigned.computeDigest }

end DenyPolicy
