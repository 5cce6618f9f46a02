import DenyPolicy.Scope
import DenyPolicy.Rule
import DenyPolicy.Emergency
/-!
# Policy sets

A policy set is the manifest of one scope: its level, the frameworks it was
asked for and those whose rules it carries, the emergency override in force,
its rules, a summary of them, and a digest over all of that.
-/

namespace DenyPolicy

/-- The emergency override as a manifest records it. -/
structure OverrideRecord where
  active : Bool
  reason : Option String := none
  deriving Repr, DecidableEq, Inhabited

def OverrideRecord.ofGate (g : Gate) : OverrideRecord := ⟨g.isOverridden, g.reason?⟩

/-- Counts of the rules of a manifest. -/
structure Summary where
  ruleCount : Nat
  /-- Rules per category slug, sorted by slug. -/
  rulesByCategory : List (String × Nat)
  suppressedRuleCount : Nat
  deriving Repr, DecidableEq, Inhabited

/-- The manifest of a scope. -/
structure PolicySet where
  scope : Scope
  level : Level
  enabledFrameworks : FrameworkSet
  requestedFrameworks : FrameworkSet
  emergencyOverride : OverrideRecord
  rules : List DenyRule
  summary : Summary
  digest : String
  deriving Repr, DecidableEq, Inhabited

namespace PolicySet

def rule? (p : PolicySet) (name : String) : Option DenyRule := p.rules.find? (·.name == name)

/-- The names of the rules, in order. -/
def ruleNames (p : PolicySet) : List String := p.rules.map (·.name)

end PolicySet

def bumpCount (key : String) : List (String × Nat) → List (String × Nat)
  | [] => [(key, 1)]
  | (k, n) :: rest =>
    if key < k then (key, 1) :: (k, n) :: rest
    else if key = k then (k, n + 1) :: rest
    else (k, n) :: bumpCount key rest

def countByCategory (rules : List DenyRule) : List (String × Nat) :=
  rules.foldl (fun m r => bumpCount r.category.slug m) []

end DenyPolicy
