import DenyPolicy.Error
import DenyPolicy.Text.Blank
import DenyPolicy.Text.Grammar
import DenyPolicy.Time.Instant
/-!
# Exception principals

Every deny rule of a scope exempts the same principals: those that must never
be locked out by it.  They come from four sources, in this order:

1. the break-glass group, given explicitly or else taken from the remote
   break-glass state when that state is available with a non-blank group;
2. the service accounts, in the order given;
3. the workload-identity pool bindings, in the order given;
4. the temporary exemptions that have not expired at the evaluation time.

Each source is checked and written as a principal URI, and the list keeps the
first occurrence of each principal.  Without a break-glass group, and while
enforcement is live, the scope is refused before any source is looked at:
rules with no way around them would lock out their own administrators.
-/

namespace DenyPolicy

/-- A workload-identity pool binding: the members of a federated pool whose
attribute has a given value. -/
structure Binding where
  poolId : String
  providerId : String
  projectNumber : String
  attributeName : String
  attributeValue : String
  deriving Repr, DecidableEq, Inhabited

/-- A principal exempted until an instant. -/
structure Exemption where
  principal : String
  expiresAt : Instant
  reason : String
  deriving Repr, DecidableEq, Inhabited

/-- What the remote break-glass service answered. -/
inductive RemoteBreakGlass where
  | available (group : String) (superAdmins : List String)
  | unavailable (reason : String)
  deriving Repr, DecidableEq, Inhabited

namespace RemoteBreakGlass

def fallbackGroup? : RemoteBreakGlass → Option String
  | .available g _ => if Text.isBlankText g then none else some (Text.trim g)
  | .unavailable _ => none

def superAdmins : RemoteBreakGlass → List String
  | .available _ admins => admins
  | .unavailable _ => []

end RemoteBreakGlass

/-- The sources of exception principals. -/
structure ExceptionSources where
  breakGlassGroup : String := ""
  remoteFallback : Option RemoteBreakGlass := none
  serviceAccounts : List String := []
  bindings : List Binding := []
  exemptions : List Exemption := []
  deriving Repr, DecidableEq, Inhabited

/-- One source of an exception principal. -/
inductive ExceptionSource where
  | breakGlass (email : String)
  | serviceAccount (identity : String)
  | binding (b : Binding)
  | exemption (e : Exemption)
  deriving Repr, DecidableEq

/-- Where the break-glass group came from. -/
inductive Origin where
  | explicit
  | remoteFallback
  deriving Repr, DecidableEq

/-- The name of an origin. -/
def Origin.name : Origin → String
  | .explicit => "explicit"
  | .remoteFallback => "remote_fallback"

def groupPrincipal (email : String) : String := "principalSet://goog/group/" ++ email

/-- Whether a text is already a principal URI. -/
def isPrincipalUri (s : String) : Bool := Text.containsText s "://"

def bindingField : String := "exception_sources.workload_identity_bindings"

def checkBindingIds (scope : String) : List (String × String) → Except PolicyError Unit
  | [] => .ok ()
  | (name, value) :: rest =>
    if Text.isIdentifier value then checkBindingIds scope rest
    else .error (.validation scope (bindingField ++ "." ++ name)
      (name ++ " '" ++ value ++ "' must be lowercase letters, digits, '-' or '_'"))

namespace ExceptionSource

/-- The principal of a source at the instant `at`: `none` for a blank group or an
expired exemption. -/
def resolve (scope : String) (at_ : Instant) : ExceptionSource → Except PolicyError (Option String)
  | .breakGlass email =>
    let email := Text.trim email
    if email.isEmpty then .ok none
    else if Text.isEmail email then .ok (some (groupPrincipal email))
    else .error (.validation scope "exception_sources.break_glass_group"
      ("'" ++ email ++ "' is not a valid group email"))
  | .serviceAccount identity =>
    let identity := Text.trim identity
    if identity.isEmpty ∨ identity.toList.any Text.isBlank then
      .error (.validation scope "exception_sources.service_accounts"
        ("invalid service account identity '" ++ identity ++ "'"))
    else if isPrincipalUri identity then .ok (some identity)
    else .ok (some ("principal://iam.googleapis.com/projects/-/serviceAccounts/" ++ identity))
  | .binding b => do
    checkBindingIds scope [("pool_id", b.poolId), ("provider_id", b.providerId),
      ("attribute_name", b.attributeName)]
    if b.attributeValue.isEmpty ∨ b.attributeValue.toList.any (fun c => Text.isBlank c || Text.isControl c) then
      .error (.validation scope (bindingField ++ ".attribute_value")
        ("attribute value '" ++ b.attributeValue ++ "' for pool '" ++ b.poolId ++
          "' must be non-empty and contain no whitespace"))
    else if !isNumeric b.projectNumber then
      .error (.validation scope (bindingField ++ ".project_number")
        ("project number '" ++ b.projectNumber ++ "' for pool '" ++ b.poolId ++ "' must be numeric"))
    else .ok (some ("principalSet://iam.googleapis.com/projects/" ++ b.projectNumber ++
      "/locations/global/workloadIdentityPools/" ++ b.poolId ++ "/attribute." ++ b.attributeName ++
      "/" ++ b.attributeValue))
  | .exemption e => do
    let p := Text.trim e.principal
    let resolved ← if isPrincipalUri p then pure p
      else if Text.isEmail p then pure ("principal://goog/subject/" ++ p)
      else .error (.validation scope "exception_sources.temporary_exemptions"
        ("'" ++ p ++ "' is neither a principal URI nor a valid email"))
    if e.expiresAt < at_ then pure none else pure (some resolved)
where
  /-- Whether a text is a non-empty string of ASCII digits. -/
  isNumeric (s : String) : Bool := !s.isEmpty && s.toList.all Char.isDigit

end ExceptionSource

/-- The outcome of resolving the exception sources. -/
structure Resolution where
  principals : List String
  origin : Option Origin
  expired : List String
  superAdmins : List String
  deriving Repr, DecidableEq

namespace ExceptionSources

/-- The break-glass group in force and where it came from. -/
def breakGlass? (s : ExceptionSources) : Option (String × Origin) :=
  if !Text.isBlankText s.breakGlassGroup then some (Text.trim s.breakGlassGroup, .explicit)
  else match s.remoteFallback.bind RemoteBreakGlass.fallbackGroup? with
    | some g => some (g, .remoteFallback)
    | none => none

def ordered (s : ExceptionSources) : List ExceptionSource :=
  (match s.breakGlass? with
   | some (g, _) => [ExceptionSource.breakGlass g]
   | none => []) ++
  s.serviceAccounts.map .serviceAccount ++ s.bindings.map .binding ++ s.exemptions.map .exemption

def missingReason (s : ExceptionSources) : String :=
  match s.remoteFallback with
  | some (.unavailable reason) => "remote break-glass state unavailable: " ++ reason
  | some (.available _ _) => "remote break-glass state returned an empty group"
  | none => "no remote break-glass state supplied"

def superAdmins (s : ExceptionSources) : List String :=
  match s.remoteFallback with
  | some r => r.superAdmins
  | none => []

end ExceptionSources

def addPrincipal (acc : List String) (p : String) : List String :=
  if acc.contains p then acc else acc ++ [p]

/-- Resolves the sources in order, collecting principals and expired exemptions. -/
def resolveSources (scope : String) (at_ : Instant) :
    List ExceptionSource → List String → List String → Except PolicyError (List String × List String)
  | [], principals, expired => .ok (principals, expired)
  | src :: rest, principals, expired => do
    match ← src.resolve scope at_ with
    | some p => resolveSources scope at_ rest (addPrincipal principals p) expired
    | none =>
      match src with
      | .exemption e => resolveSources scope at_ rest principals (expired ++ [e.principal])
      | _ => resolveSources scope at_ rest principals expired

/-- The exception principals of a scope at the instant `at_`; `overridden` skips the
break-glass requirement. -/
def resolveExceptions (scope : String) (s : ExceptionSources) (overridden : Bool) (at_ : Instant) :
    Except PolicyError Resolution :=
  let origin := s.breakGlass?.map (·.2)
  if origin.isNone ∧ !overridden then
    .error (.configuration scope "exception_sources.break_glass_group"
      ("no break-glass principal and enforcement is live (" ++ s.missingReason ++
        "); refusing to emit rules"))
  else do
    let (principals, expired) ← resolveSources scope at_ s.ordered [] []
    pure ⟨principals, origin, expired, s.superAdmins⟩

end DenyPolicy
