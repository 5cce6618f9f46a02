import DenyPolicy.Error
import DenyPolicy.Text.Blank
/-!
# The emergency gate

An emergency override withholds every rule of a scope while an incident is
handled.  It is granted only with a reason that, trimmed, is longer than ten
characters; a request with a shorter reason is refused rather than ignored.
-/

namespace DenyPolicy

/-- A request for an emergency override. -/
structure OverrideRequest where
  active : Bool := false
  reason : String := ""
  deriving Repr, DecidableEq, Inhabited

/-- The state of the gate: enforcing, or overridden for a reason. -/
inductive Gate where
  | enforcing
  | overridden (reason : String)
  deriving Repr, DecidableEq, Inhabited

/-- The least number of characters a reason must exceed. -/
def minReasonLength : Nat := 10

namespace Gate

/-- The gate that a request opens for the scope `scope`. -/
def ofRequest (scope : String) (r : OverrideRequest) : Except PolicyError Gate :=
  if !r.active then .ok .enforcing
  else
    let reason := Text.trim r.reason
    if reason.length ≤ minReasonLength then
      .error (.emergencyOverride scope
        ("reason must be longer than " ++ toString minReasonLength ++ " characters (got " ++
          toString reason.length ++ ")"))
    else .ok (.overridden reason)

def isOverridden : Gate → Bool
  | .enforcing => false
  | .overridden _ => true

def reason? : Gate → Option String
  | .enforcing => none
  | .overridden r => some r

end Gate

end DenyPolicy
