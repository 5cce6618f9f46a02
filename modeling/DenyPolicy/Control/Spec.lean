import DenyPolicy.Rule
import DenyPolicy.Params
import DenyPolicy.Overrides
/-!
# Controls

A control is one entry of a framework's table: the permissions it denies, whom
it denies them to, the condition template it carries, and when it is active.
Activation reads the compliance level, the data classification, the framework
parameters and the overrides; a template is filled in from the same context.
Instantiating an active control gives one deny rule whose exceptions are the
scope's exception principals.
-/

namespace DenyPolicy

/-- A framework setting that can activate a control. -/
inductive ParamFlag where
  | supplierControls
  | criterion (c : TrustCriterion)
  | merchantLevelAtMost (n : Nat)
  | phi
  | businessAssociate
  | controller
  | specialCategory
  deriving Repr, DecidableEq

/-- An override that can activate a shared control. -/
inductive OverrideFlag where
  | enforceMfa
  | requireApproval
  deriving Repr, DecidableEq

/-- When a control is active. -/
inductive Activation where
  | always
  | atLeast (l : Level)
  | classification (c : Classification)
  | param (p : ParamFlag)
  | override (o : OverrideFlag)
  | all (as : List Activation)
  | any (as : List Activation)
  deriving Repr

/-- A condition template. -/
inductive Condition where
  | outsideBusinessHours
  | missingMfa
  | missingTag (key value : String)
  | inCardholderEnvironment
  | insufficientApprovals
  | sessionOlderThanCap
  | selfModification
  | all (parts : List Condition)
  deriving Repr

/-- Whom a control denies. -/
inductive Denied where
  | everyone
  | approverGroup
  deriving Repr, DecidableEq

/-- One control of a table. -/
structure Control where
  id : String
  description : String
  permissions : List String
  condition : Option Condition
  denied : Denied
  activation : Activation
  deriving Repr

/-- What activation and templates read. -/
structure Context where
  level : Level
  classification : Classification
  params : FrameworkParams
  overrides : Overrides
  deriving Repr

namespace ParamFlag

/-- Whether the framework settings raise the flag. -/
def holds (p : FrameworkParams) : ParamFlag → Bool
  | .supplierControls => p.includeSupplierControls
  | .criterion c => p.trustCriteria.mem c
  | .merchantLevelAtMost n => decide (p.merchantLevel ≤ n)
  | .phi => p.phi
  | .businessAssociate => p.businessAssociate
  | .controller => p.controller
  | .specialCategory => p.specialCategory

end ParamFlag

def OverrideFlag.holds (o : Overrides) : OverrideFlag → Bool
  | .enforceMfa => o.enforceMfa
  | .requireApproval => o.requireApproval

namespace Activation

mutual
/-- Whether a control with this activation is active in a context. -/
def holds (ctx : Context) : Activation → Bool
  | .always => true
  | .atLeast l => decide (l ≤ ctx.level)
  | .classification c => decide (c ≤ ctx.classification)
  | .param p => p.holds ctx.params
  | .override o => o.holds ctx.overrides
  | .all as => holdsAll ctx as
  | .any as => holdsAny ctx as

def holdsAll (ctx : Context) : List Activation → Bool
  | [] => true
  | a :: rest => holds ctx a && holdsAll ctx rest

def holdsAny (ctx : Context) : List Activation → Bool
  | [] => false
  | a :: rest => holds ctx a || holdsAny ctx rest
end

end Activation

namespace Condition

mutual
/-- The condition text of a template in a context. -/
def render (ctx : Context) : Condition → String
  | .outsideBusinessHours =>
    let h := ctx.overrides.businessHours
    "request.time.getHours(\"" ++ h.timeZone ++ "\") < " ++ toString h.startHour ++
      " || request.time.getHours(\"" ++ h.timeZone ++ "\") >= " ++ toString h.endHour
  | .missingMfa => "!request.auth.claims.amr.exists(m, m == \"mfa\")"
  | .missingTag key value => "!resource.matchTag(\"" ++ key ++ "\", \"" ++ value ++ "\")"
  | .inCardholderEnvironment => "resource.matchTag(\"" ++ ctx.params.cdeTag ++ "\", \"in-scope\")"
  | .insufficientApprovals =>
    "int(request.headers[\"x-change-approvals\"]) < " ++
      toString (ctx.overrides.requiredApprovalsAt ctx.level)
  | .sessionOlderThanCap =>
    "request.time - timestamp(request.auth.claims.auth_time) > duration(\"" ++
      toString (ctx.overrides.sessionHours ctx.level) ++ "h\")"
  | .selfModification => "resource.name.endsWith(request.auth.principal)"
  | .all parts => renderParts ctx parts

def renderParts (ctx : Context) : List Condition → String
  | [] => ""
  | [c] => "(" ++ render ctx c ++ ")"
  | c :: rest => "(" ++ render ctx c ++ ") && " ++ renderParts ctx rest
end

end Condition

namespace Control

/-- The principal a control denies in a context; `none` when it denies an approver
group and none is configured. -/
def deniedPrincipal? (ctx : Context) : Denied → Option String
  | .everyone => some allPrincipals
  | .approverGroup => ctx.overrides.approverGroup.map fun g => "principalSet://goog/group/" ++ Text.trim g

/-- The rule of a control in a context, when the control is active. -/
def instantiate (category : RuleCategory) (ctx : Context) (exceptions : List String) (c : Control) :
    Option DenyRule :=
  if c.activation.holds ctx then
    (deniedPrincipal? ctx c.denied).map fun denied =>
      { name := ruleName category c.id
        category := category
        controlId := c.id
        description := c.description
        deniedPermissions := StringSet.ofList c.permissions
        deniedPrincipals := [denied]
        exceptionPrincipals := exceptions
        condition := c.condition.map (·.render ctx) }
  else none

end Control

def compileTable (category : RuleCategory) (table : List Control) (ctx : Context)
    (exceptions : List String) : List DenyRule :=
  table.filterMap (Control.instantiate category ctx exceptions)

end DenyPolicy
