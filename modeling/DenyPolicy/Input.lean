import DenyPolicy.Scope
import DenyPolicy.Level
import DenyPolicy.Params
import DenyPolicy.Overrides
import DenyPolicy.Emergency
import DenyPolicy.Exception
import DenyPolicy.Json.Decode
import DenyPolicy.Time.Rfc3339
import DenyPolicy.Schema.Value
/-!
# Compilation inputs

Everything the engine needs to compile one scope, as a configuration document
states it: the scope, the enabled frameworks and their settings, the data
classification, the exception sources, the overrides of the shared controls,
the emergency override, and the instant exemptions are checked against.  Every
section but the scope has a default, so a minimal document names only the
scope.  This module reads and writes the document form of each section.
-/

namespace DenyPolicy

/-- The input of one compilation. -/
structure CompilationInput where
  scope : ScopeRef
  frameworks : FrameworkSet := {}
  params : FrameworkParams := {}
  classification : Classification := .publicData
  sources : ExceptionSources := {}
  overrides : Overrides := {}
  emergency : OverrideRequest := {}
  evaluationTime : Option Instant := none
  deriving Repr, DecidableEq, Inhabited

namespace CompilationInput

/-- Whether compiling needs the remote break-glass state: no group is configured
and no remote state has been supplied. -/
def needsRemoteBreakGlass (i : CompilationInput) : Bool :=
  Text.isBlankText i.sources.breakGlassGroup && i.sources.remoteFallback.isNone

def withResolvedFallback (i : CompilationInput) (resolver : RemoteBreakGlass) : CompilationInput :=
  if i.needsRemoteBreakGlass then { i with sources := { i.sources with remoteFallback := some resolver } }
  else i

def withDefaultTime (i : CompilationInput) (t : Instant) : CompilationInput :=
  { i with evaluationTime := some (i.evaluationTime.getD t) }

end CompilationInput

/-! ## Reading -/

def Instant.decode : Decoder Instant := Decode.parsed "timestamp" Instant.readRelaxed

def ScopeRef.decode : Decoder ScopeRef := fun v => do
  let fs ← Decode.fields ["tier", "id"] v
  let tier ← fs.required "tier" (Decode.enum Tier.ofName?)
  let id ← fs.required "id" Decode.string
  pure ⟨tier, id⟩

def FrameworkParams.decode : Decoder FrameworkParams := fun v => do
  let d : FrameworkParams := {}
  let fs ← Decode.fields ["iso27001", "soc2", "pci_dss", "hipaa", "gdpr"] v
  let supplier ← fs.withDefault "iso27001" d.includeSupplierControls fun v => do
    let f ← Decode.fields ["include_supplier_controls"] v
    f.withDefault "include_supplier_controls" d.includeSupplierControls Decode.bool
  let criteria ← fs.withDefault "soc2" d.trustCriteria fun v => do
    let f ← Decode.fields ["trust_criteria"] v
    f.withDefault "trust_criteria" d.trustCriteria fun v =>
      (Decode.list (Decode.enum TrustCriterion.ofName?) v).map CriterionSet.ofList
  let (merchant, tag) ← fs.withDefault "pci_dss" (d.merchantLevel, d.cdeTag) fun v => do
    let f ← Decode.fields ["merchant_level", "cde_tag"] v
    let m ← f.withDefault "merchant_level" d.merchantLevel Decode.u8
    let t ← f.withDefault "cde_tag" d.cdeTag Decode.string
    pure (m, t)
  let (phi, associate) ← fs.withDefault "hipaa" (d.phi, d.businessAssociate) fun v => do
    let f ← Decode.fields ["phi", "business_associate"] v
    let p ← f.withDefault "phi" d.phi Decode.bool
    let b ← f.withDefault "business_associate" d.businessAssociate Decode.bool
    pure (p, b)
  let (controller, special) ← fs.withDefault "gdpr" (d.controller, d.specialCategory) fun v => do
    let f ← Decode.fields ["controller", "special_category"] v
    let c ← f.withDefault "controller" d.controller Decode.bool
    let s ← f.withDefault "special_category" d.specialCategory Decode.bool
    pure (c, s)
  pure ⟨supplier, criteria, merchant, tag, phi, associate, controller, special⟩

def BusinessHours.decode : Decoder BusinessHours := fun v => do
  let d : BusinessHours := {}
  let fs ← Decode.fields ["start_hour", "end_hour", "time_zone"] v
  let s ← fs.withDefault "start_hour" d.startHour Decode.u32
  let e ← fs.withDefault "end_hour" d.endHour Decode.u32
  let tz ← fs.withDefault "time_zone" d.timeZone Decode.string
  pure ⟨s, e, tz⟩

def Overrides.decode : Decoder Overrides := fun v => do
  let fs ← Decode.fields ["enforce_mfa", "require_approval", "required_approvals", "max_session_hours",
    "business_hours", "approver_group"] v
  let mfa ← fs.withDefault "enforce_mfa" false Decode.bool
  let approval ← fs.withDefault "require_approval" false Decode.bool
  let approvals ← fs.optional "required_approvals" Decode.u32
  let session ← fs.optional "max_session_hours" Decode.u32
  let hours ← fs.withDefault "business_hours" {} BusinessHours.decode
  let approver ← fs.optional "approver_group" Decode.string
  pure ⟨mfa, approval, approvals, session, hours, approver⟩

def OverrideRequest.decode : Decoder OverrideRequest := fun v => do
  let fs ← Decode.fields ["active", "reason"] v
  let active ← fs.withDefault "active" false Decode.bool
  let reason ← fs.withDefault "reason" "" Decode.string
  pure ⟨active, reason⟩

def RemoteBreakGlass.decode : Decoder RemoteBreakGlass := fun v => do
  let fs ← Decode.fields ["status"] v
  let status ← fs.required "status" Decode.string
  match status with
  | "available" =>
    let fs ← Decode.fields ["status", "break_glass_group", "super_admins"] v
    let g ← fs.required "break_glass_group" Decode.string
    let admins ← fs.withDefault "super_admins" [] (Decode.list Decode.string)
    pure (.available g admins)
  | "unavailable" =>
    let fs ← Decode.fields ["status", "reason"] v
    let r ← fs.required "reason" Decode.string
    pure (.unavailable r)
  | other => .error (.unknownVariant other)

def Binding.decode : Decoder Binding := fun v => do
  let fs ← Decode.fields ["pool_id", "provider_id", "project_number", "attribute_name",
    "attribute_value"] v
  let pool ← fs.required "pool_id" Decode.string
  let provider ← fs.required "provider_id" Decode.string
  let number ← fs.required "project_number" Decode.string
  let name ← fs.required "attribute_name" Decode.string
  let value ← fs.required "attribute_value" Decode.string
  pure ⟨pool, provider, number, name, value⟩

def Exemption.decode : Decoder Exemption := fun v => do
  let fs ← Decode.fields ["principal", "expires_at", "reason"] v
  let p ← fs.required "principal" Decode.string
  let t ← fs.required "expires_at" Instant.decode
  let r ← fs.required "reason" Decode.string
  pure ⟨p, t, r⟩

def ExceptionSources.decode : Decoder ExceptionSources := fun v => do
  let fs ← Decode.fields ["break_glass_group", "remote_fallback", "service_accounts",
    "workload_identity_bindings", "temporary_exemptions"] v
  let g ← fs.withDefault "break_glass_group" "" Decode.string
  let remote ← fs.optional "remote_fallback" RemoteBreakGlass.decode
  let accounts ← fs.withDefault "service_accounts" [] (Decode.list Decode.string)
  let bindings ← fs.withDefault "workload_identity_bindings" [] (Decode.list Binding.decode)
  let exemptions ← fs.withDefault "temporary_exemptions" [] (Decode.list Exemption.decode)
  pure ⟨g, remote, accounts, bindings, exemptions⟩

def CompilationInput.decode : Decoder CompilationInput := fun v => do
  let fs ← Decode.fields ["scope", "enabled_frameworks", "framework_params", "data_classification",
    "exception_sources", "security_control_overrides", "emergency_override", "evaluation_time"] v
  let scope ← fs.required "scope" ScopeRef.decode
  let frameworks ← fs.withDefault "enabled_frameworks" {} fun v =>
    (Decode.list (Decode.enum Framework.ofName?) v).map FrameworkSet.ofList
  let params ← fs.withDefault "framework_params" {} FrameworkParams.decode
  let classification ← fs.withDefault "data_classification" .publicData
    (Decode.enum Classification.ofName?)
  let sources ← fs.withDefault "exception_sources" {} ExceptionSources.decode
  let overrides ← fs.withDefault "security_control_overrides" {} Overrides.decode
  let emergency ← fs.withDefault "emergency_override" {} OverrideRequest.decode
  let time ← fs.optional "evaluation_time" Instant.decode
  pure ⟨scope, frameworks, params, classification, sources, overrides, emergency, time⟩

/-! ## What documents hold -/

def Tier.schema : Schema := .choice ["organization", "folder", "project"] [("org", "organization")]

def Framework.schema : Schema := .choice ["iso27001", "soc2", "pci_dss", "hipaa", "gdpr"] []

def Classification.schema : Schema := .choice ["public", "internal", "confidential", "restricted"] []

def Level.schema : Schema := .choice ["baseline", "medium", "high", "maximum"] []

def ScopeRef.schema : Schema :=
  .record "ScopeRef" [("tier", .required, Tier.schema), ("id", .required, .text)]

/-- The settings of each framework, every one with a default. -/
def FrameworkParams.schema : Schema :=
  .record "FrameworkParams"
    [("iso27001", .defaulted, .record "Iso27001Params" [("include_supplier_controls", .defaulted, .flag)]),
     ("soc2", .defaulted, .record "Soc2Params"
       [("trust_criteria", .defaulted,
         .list (.choice ["security", "availability", "processing_integrity", "confidentiality", "privacy"] []))]),
     ("pci_dss", .defaulted, .record "PciDssParams"
       [("merchant_level", .defaulted, .unsigned 8 "u8"), ("cde_tag", .defaulted, .text)]),
     ("hipaa", .defaulted, .record "HipaaParams"
       [("phi", .defaulted, .flag), ("business_associate", .defaulted, .flag)]),
     ("gdpr", .defaulted, .record "GdprParams"
       [("controller", .defaulted, .flag), ("special_category", .defaulted, .flag)])]

/-- The overrides of the shared controls, every one with a default. -/
def Overrides.schema : Schema :=
  .record "SecurityControlOverrides"
    [("enforce_mfa", .defaulted, .flag),
     ("require_approval", .defaulted, .flag),
     ("required_approvals", .defaulted, .optional (.unsigned 32 "u32")),
     ("max_session_hours", .defaulted, .optional (.unsigned 32 "u32")),
     ("business_hours", .defaulted, .record "BusinessHours"
       [("start_hour", .defaulted, .unsigned 32 "u32"), ("end_hour", .defaulted, .unsigned 32 "u32"),
        ("time_zone", .defaulted, .text)]),
     ("approver_group", .defaulted, .optional .text)]

def OverrideRequest.schema : Schema :=
  .record "EmergencyOverride" [("active", .defaulted, .flag), ("reason", .defaulted, .text)]

def RemoteBreakGlass.schema : Schema :=
  .tagged "RemoteBreakGlass" "status"
    [("available", [("break_glass_group", .required, .text), ("super_admins", .defaulted, .list .text)]),
     ("unavailable", [("reason", .required, .text)])]

def Binding.schema : Schema :=
  .record "WorkloadIdentityBinding"
    [("pool_id", .required, .text), ("provider_id", .required, .text), ("project_number", .required, .text),
     ("attribute_name", .required, .text), ("attribute_value", .required, .text)]

def Exemption.schema : Schema :=
  .record "TemporaryExemption"
    [("principal", .required, .text), ("expires_at", .required, Instant.schema), ("reason", .required, .text)]

/-- The sources of exceptions, every one with a default. -/
def ExceptionSources.schema : Schema :=
  .record "ExceptionSources"
    [("break_glass_group", .defaulted, .text),
     ("remote_fallback", .defaulted, .optional RemoteBreakGlass.schema),
     ("service_accounts", .defaulted, .list .text),
     ("workload_identity_bindings", .defaulted, .list Binding.schema),
     ("temporary_exemptions", .defaulted, .list Exemption.schema)]

/-- A compilation input: the scope, and every other section with a default. -/
def CompilationInput.schema : Schema :=
  .record "CompilationInput"
    [("scope", .required, ScopeRef.schema),
     ("enabled_frameworks", .defaulted, .list Framework.schema),
     ("framework_params", .defaulted, FrameworkParams.schema),
     ("data_classification", .defaulted, Classification.schema),
     ("exception_sources", .defaulted, ExceptionSources.schema),
     ("security_control_overrides", .defaulted, Overrides.schema),
     ("emergency_override", .defaulted, OverrideRequest.schema),
     ("evaluation_time", .defaulted, .optional Instant.schema)]

/-! ## Writing -/

def natJson (n : Nat) : Json := .num (.nat n)

def stringsJson (xs : List String) : Json := .arr (xs.map .str)

def FrameworkParams.toJson (p : FrameworkParams) : Json :=
  .obj [("iso27001", .obj [("include_supplier_controls", .bool p.includeSupplierControls)]),
    ("soc2", .obj [("trust_criteria", .arr (p.trustCriteria.toList.map fun c => .str c.name))]),
    ("pci_dss", .obj [("merchant_level", natJson p.merchantLevel), ("cde_tag", .str p.cdeTag)]),
    ("hipaa", .obj [("phi", .bool p.phi), ("business_associate", .bool p.businessAssociate)]),
    ("gdpr", .obj [("controller", .bool p.controller), ("special_category", .bool p.specialCategory)])]

def optionalField (name : String) (f : α → Json) : Option α → List (String × Json)
  | some a => [(name, f a)]
  | none => []

def Overrides.toJson (o : Overrides) : Json :=
  .obj ([("enforce_mfa", .bool o.enforceMfa), ("require_approval", .bool o.requireApproval)] ++
    optionalField "required_approvals" natJson o.requiredApprovals ++
    optionalField "max_session_hours" natJson o.maxSessionHours ++
    [("business_hours", .obj [("start_hour", natJson o.businessHours.startHour),
      ("end_hour", natJson o.businessHours.endHour), ("time_zone", .str o.businessHours.timeZone)])] ++
    optionalField "approver_group" Json.str o.approverGroup)

def RemoteBreakGlass.toJson : RemoteBreakGlass → Json
  | .available g admins =>
    .obj [("status", .str "available"), ("break_glass_group", .str g), ("super_admins", stringsJson admins)]
  | .unavailable r => .obj [("status", .str "unavailable"), ("reason", .str r)]

def Binding.toJson (b : Binding) : Json :=
  .obj [("pool_id", .str b.poolId), ("provider_id", .str b.providerId),
    ("project_number", .str b.projectNumber), ("attribute_name", .str b.attributeName),
    ("attribute_value", .str b.attributeValue)]

def Exemption.toJson (e : Exemption) : Json :=
  .obj [("principal", .str e.principal), ("expires_at", .str e.expiresAt.render), ("reason", .str e.reason)]

def ExceptionSources.toJson (s : ExceptionSources) : Json :=
  .obj ([("break_glass_group", .str s.breakGlassGroup)] ++
    optionalField "remote_fallback" RemoteBreakGlass.toJson s.remoteFallback ++
    [("service_accounts", stringsJson s.serviceAccounts),
      ("workload_identity_bindings", .arr (s.bindings.map Binding.toJson)),
      ("temporary_exemptions", .arr (s.exemptions.map Exemption.toJson))])

def OverrideRequest.toJson (r : OverrideRequest) : Json :=
  .obj [("active", .bool r.active), ("reason", .str r.reason)]

def CompilationInput.toJson (i : CompilationInput) : Json :=
  .obj ([("scope", .obj [("tier", .str i.scope.tier.name), ("id", .str i.scope.id)]),
    ("enabled_frameworks", .arr (i.frameworks.toList.map fun f => .str f.name)),
    ("framework_params", i.params.toJson),
    ("data_classification", .str i.classification.name),
    ("exception_sources", i.sources.toJson),
    ("security_control_overrides", i.overrides.toJson),
    ("emergency_override", i.emergency.toJson)] ++
    optionalField "evaluation_time" (fun t => .str (Instant.render t)) i.evaluationTime)

end DenyPolicy
