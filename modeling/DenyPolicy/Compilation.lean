import DenyPolicy.Input
import DenyPolicy.Control.Frameworks
import DenyPolicy.Control.Shared
import DenyPolicy.Manifest.Assemble
/-!
# Compiling a scope

Compiling an input runs its checks in a fixed order and stops at the first
that fails: the scope, the presence of an evaluation time, the framework
parameters, the overrides, the emergency gate, and the exception sources.
Then the level is computed, the framework tables and the shared table are
walked, and the rules are assembled into the scope's policy set.

Nothing here reads a clock: the evaluation time comes with the input.
-/

namespace DenyPolicy

/-- A compiled scope: its policy set and how its exceptions were resolved. -/
structure Outcome where
  policySet : PolicySet
  exceptions : Resolution
  deriving Repr, DecidableEq

namespace CompilationInput

/-- The context that activation and templates read. -/
def context (i : CompilationInput) : Context :=
  ⟨Level.compute i.frameworks i.classification, i.classification, i.params, i.overrides⟩

/-- Compiles one scope. -/
def compile (i : CompilationInput) : Except PolicyError Outcome := do
  let scope ← i.scope.resolve
  let at_ ← match i.evaluationTime with
    | some t => pure t
    | none => .error (.validation scope.id "evaluation_time" "an explicit evaluation time is required")
  i.params.validate scope.id
  i.overrides.validate scope.id
  let gate ← Gate.ofRequest scope.id i.emergency
  let exceptions ← resolveExceptions scope.id i.sources gate.isOverridden at_
  let ctx := i.context
  let fw := frameworkRules i.frameworks ctx exceptions.principals
  let sh := sharedRules i.frameworks ctx exceptions.principals
  let set ← assemble scope ctx.level i.frameworks gate fw sh
  pure ⟨set, exceptions⟩

def compileWith (i : CompilationInput) (resolver : RemoteBreakGlass) : Except PolicyError Outcome :=
  (i.withResolvedFallback resolver).compile

end CompilationInput

/-- The sets in the order they are applied: organizations, then folders, then
projects, each tier in the order given. -/
def applyOrder (sets : List PolicySet) : List PolicySet :=
  (sets.filter (·.scope.tier = .organization)) ++ (sets.filter (·.scope.tier = .folder)) ++
    (sets.filter (·.scope.tier = .project))

end DenyPolicy
