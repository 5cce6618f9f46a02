import DenyPolicy.Level
import DenyPolicy.Params
import DenyPolicy.Text.Grammar
/-!
# Security-control overrides

Settings that switch shared controls on below the level that would activate
them, and tighten their parameters: forcing MFA or approvals, the number of
approvals, a shorter session cap, the business-hours window and its time zone,
and the group whose members approve and so may not deploy.

Checking accepts them when a configured approval count and session cap are at
least one, the window has `start < end ≤ 24`, the time zone is non-blank and
quotable, and a configured approver group is, trimmed, a group email.  The
session cap in force is the configured one within the level's ceiling; the
approvals in force are the configured count, or two at maximum and one below.
-/

namespace DenyPolicy

/-- The working-hours window that high-risk operations are held to. -/
structure BusinessHours where
  startHour : Nat := 8
  endHour : Nat := 18
  timeZone : String := "UTC"
  deriving Repr, DecidableEq, Inhabited

/-- Overrides of the shared controls. -/
structure Overrides where
  enforceMfa : Bool := false
  requireApproval : Bool := false
  requiredApprovals : Option Nat := none
  maxSessionHours : Option Nat := none
  businessHours : BusinessHours := {}
  approverGroup : Option String := none
  deriving Repr, DecidableEq, Inhabited

namespace Overrides

def default : Overrides := {}

/-- Checks the overrides for the scope `scope`. -/
def validate (o : Overrides) (scope : String) : Except PolicyError Unit :=
  let h := o.businessHours
  if o.requiredApprovals = some 0 then
    .error (.validation scope "security_control_overrides.required_approvals"
      "required approvals must be at least 1")
  else if o.maxSessionHours = some 0 then
    .error (.validation scope "security_control_overrides.max_session_hours"
      "max session hours must be at least 1")
  else if h.endHour ≤ h.startHour ∨ 24 < h.endHour then
    .error (.validation scope "security_control_overrides.business_hours"
      ("invalid window " ++ toString h.startHour ++ ".." ++ toString h.endHour ++
        " (need start < end <= 24)"))
  else if Text.isBlankText h.timeZone ∨ !FrameworkParams.isQuotable h.timeZone then
    .error (.validation scope "security_control_overrides.business_hours.time_zone"
      ("invalid time zone '" ++ h.timeZone ++ "'"))
  else match o.approverGroup with
    | some g =>
      if Text.isEmail (Text.trim g) then .ok ()
      else .error (.validation scope "security_control_overrides.approver_group"
        ("'" ++ g ++ "' is not a valid group email"))
    | none => .ok ()

def sessionHours (o : Overrides) (l : Level) : Nat :=
  match o.maxSessionHours with
  | some h => min h l.sessionCeilingHours
  | none => l.sessionCeilingHours

def requiredApprovalsAt (o : Overrides) (l : Level) : Nat :=
  match o.requiredApprovals with
  | some n => n
  | none => if l = .maximum then 2 else 1

end Overrides

end DenyPolicy
