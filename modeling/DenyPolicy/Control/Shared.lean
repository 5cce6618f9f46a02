import DenyPolicy.Control.Spec
/-!
# Shared controls

The controls that every scope with at least one framework carries, whatever
the framework: MFA, session length, approvals and business hours on the
high-risk operations, and segregation of duties.  The overrides can switch MFA
and approvals on below their levels.
-/

namespace DenyPolicy

namespace Control

def highRiskPermissions : List String := [
  "cloudresourcemanager.googleapis.com/projects.delete",
  "cloudresourcemanager.googleapis.com/projects.setIamPolicy",
  "iam.googleapis.com/roles.update",
  "iam.googleapis.com/serviceAccountKeys.create",
  "iam.googleapis.com/serviceAccounts.setIamPolicy"]

def deployPermissions : List String := [
  "cloudbuild.googleapis.com/builds.create",
  "clouddeploy.googleapis.com/releases.create",
  "run.googleapis.com/services.update"]

/-- The shared controls. -/
def shared : List Control := [
  ⟨"mfa-enforcement", "High-risk operations require a second authentication factor",
    highRiskPermissions, some .missingMfa, .everyone, .any [.atLeast .medium, .override .enforceMfa]⟩,
  ⟨"session-duration", "High-risk operations are refused once the session exceeds its cap",
    highRiskPermissions, some .sessionOlderThanCap, .everyone, .always⟩,
  ⟨"approval-required", "High-risk operations need the required number of recorded approvals",
    highRiskPermissions, some .insufficientApprovals, .everyone,
    .any [.atLeast .high, .override .requireApproval]⟩,
  ⟨"sod-self-modification", "Segregation of duties: no principal may modify its own bindings",
    ["cloudresourcemanager.googleapis.com/projects.setIamPolicy",
      "iam.googleapis.com/serviceAccounts.setIamPolicy"],
    some .selfModification, .everyone, .atLeast .high⟩,
  ⟨"sod-approver-deploy", "Segregation of duties: approvers may not also deploy",
    deployPermissions, none, .approverGroup, .atLeast .high⟩,
  ⟨"time-of-day", "High-risk operations are refused outside business hours",
    highRiskPermissions, some .outsideBusinessHours, .everyone, .atLeast .maximum⟩]

end Control

/-- The rules of the shared table; none when no framework is enabled. -/
def sharedRules (enabled : FrameworkSet) (ctx : Context) (exceptions : List String) :
    List DenyRule :=
  if enabled.isEmpty then [] else compileTable .shared Control.shared ctx exceptions

end DenyPolicy
