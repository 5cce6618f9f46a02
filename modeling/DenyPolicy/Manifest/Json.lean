import DenyPolicy.Manifest.Basic
import DenyPolicy.Json.Print
import DenyPolicy.Json.Decode
import DenyPolicy.Hash.Sha256
import DenyPolicy.Input
/-!
# Manifests as JSON

The document form of rules and policy sets, and the digest.  Members are
written in declaration order, optional members only when present; the digest
is the lowercase SHA-256 of the compact text of every member but the digest
itself.  Reading takes the same form back, sets of strings in increasing order.
-/

namespace DenyPolicy

namespace Scope

def toJson (s : Scope) : Json :=
  .obj [("tier", .str s.tier.name), ("id", .str s.id), ("canonical_address", .str s.canonicalAddress)]

def schema : Schema :=
  .record "Scope" [("tier", .required, Tier.schema), ("id", .required, .text), ("canonical_address", .required, .text)]

def decode : Decoder Scope := fun v => do
  let fs ← Decode.fields ["tier", "id", "canonical_address"] v
  let tier ← fs.required "tier" (Decode.enum Tier.ofName?)
  let id ← fs.required "id" Decode.string
  let address ← fs.required "canonical_address" Decode.string
  pure ⟨tier, id, address⟩

end Scope

def strings (xs : List String) : Json := .arr (xs.map .str)

def FrameworkSet.toJson (s : FrameworkSet) : Json := .arr (s.toList.map fun f => .str f.name)

def FrameworkSet.decode : Decoder FrameworkSet := fun v =>
  (Decode.list (Decode.enum Framework.ofName?) v).map FrameworkSet.ofList

def decodeStringSet : Decoder (List String) := fun v => (Decode.list Decode.string v).map StringSet.ofList

namespace DenyRule

def toJson (r : DenyRule) : Json :=
  .obj ([("name", .str r.name), ("category", .str r.category.name), ("control_id", .str r.controlId),
    ("description", .str r.description), ("denied_permissions", strings r.deniedPermissions),
    ("denied_principals", strings r.deniedPrincipals),
    ("exception_principals", strings r.exceptionPrincipals)] ++
    match r.condition with
    | some c => [("condition", .str c)]
    | none => [])

/-- A rule as a manifest states it; only the condition may be absent. -/
def schema : Schema :=
  .record "DenyRule"
    [("name", .required, .text),
     ("category", .required, .choice ["iso27001", "soc2", "pci_dss", "hipaa", "gdpr", "shared"] []),
     ("control_id", .required, .text), ("description", .required, .text),
     ("denied_permissions", .required, .list .text), ("denied_principals", .required, .list .text),
     ("exception_principals", .required, .list .text), ("condition", .defaulted, .optional .text)]

def decode : Decoder DenyRule := fun v => do
  let fs ← Decode.fields ["name", "category", "control_id", "description", "denied_permissions",
    "denied_principals", "exception_principals", "condition"] v
  let name ← fs.required "name" Decode.string
  let category ← fs.required "category" (Decode.enum RuleCategory.ofName?)
  let controlId ← fs.required "control_id" Decode.string
  let description ← fs.required "description" Decode.string
  let permissions ← fs.required "denied_permissions" decodeStringSet
  let principals ← fs.required "denied_principals" decodeStringSet
  let exceptions ← fs.required "exception_principals" (Decode.list Decode.string)
  let condition ← fs.optional "condition" Decode.string
  pure ⟨name, category, controlId, description, permissions, principals, exceptions, condition⟩

end DenyRule

def OverrideRecord.toJson (o : OverrideRecord) : Json :=
  .obj ([("active", .bool o.active)] ++
    match o.reason with
    | some r => [("reason", .str r)]
    | none => [])

def OverrideRecord.decode : Decoder OverrideRecord := fun v => do
  let fs ← Decode.fields ["active", "reason"] v
  let active ← fs.required "active" Decode.bool
  let reason ← fs.optional "reason" Decode.string
  pure ⟨active, reason⟩

def decodeCounts : Decoder (List (String × Nat))
  | .obj fs =>
    fs.foldlM (fun (acc : List (String × Nat)) (kv : String × Json) => do
      let n ← Decode.u64 kv.2
      pure (insertCount kv.1 n acc)) []
  | _ => .error (.wrongType "object")
where
  /-- Sets the count of a key in a sorted map. -/
  insertCount (key : String) (n : Nat) : List (String × Nat) → List (String × Nat)
    | [] => [(key, n)]
    | (k, m) :: rest =>
      if key < k then (key, n) :: (k, m) :: rest
      else if key = k then (key, n) :: rest
      else (k, m) :: insertCount key n rest

def Summary.toJson (s : Summary) : Json :=
  .obj [("rule_count", .num (.nat s.ruleCount)),
    ("rules_by_category", .obj (s.rulesByCategory.map fun (k, n) => (k, .num (.nat n)))),
    ("suppressed_rule_count", .num (.nat s.suppressedRuleCount))]

def Summary.decode : Decoder Summary := fun v => do
  let fs ← Decode.fields ["rule_count", "rules_by_category", "suppressed_rule_count"] v
  let count ← fs.required "rule_count" Decode.u64
  let byCategory ← fs.required "rules_by_category" decodeCounts
  let suppressed ← fs.required "suppressed_rule_count" Decode.u64
  pure ⟨count, byCategory, suppressed⟩

namespace PolicySet

/-- Every member but the digest, in order. -/
def contentFields (p : PolicySet) : List (String × Json) :=
  [("scope", p.scope.toJson), ("compliance_level", .str p.level.name),
    ("enabled_frameworks", p.enabledFrameworks.toJson),
    ("requested_frameworks", p.requestedFrameworks.toJson),
    ("emergency_override", p.emergencyOverride.toJson),
    ("rules", .arr (p.rules.map DenyRule.toJson)), ("summary", p.summary.toJson)]

def toJson (p : PolicySet) : Json := .obj (p.contentFields ++ [("digest", .str p.digest)])

/-- The digest of the content of a manifest. -/
def computeDigest (p : PolicySet) : String := sha256Hex (Json.obj p.contentFields).compact

/-- Whether the recorded digest is that of the content. -/
def verifyDigest (p : PolicySet) : Bool := p.computeDigest == p.digest

/-- The indented text a manifest is stored as. -/
def toPretty (p : PolicySet) : String := p.toJson.pretty

/-- What a manifest holds: every member is required but the reasons and
conditions, which default to none. -/
def schema : Schema :=
  let count : Schema := .unsigned 64 "usize"
  .record "PolicySet"
    [("scope", .required, Scope.schema),
     ("compliance_level", .required, Level.schema),
     ("enabled_frameworks", .required, .list Framework.schema),
     ("requested_frameworks", .required, .list Framework.schema),
     ("emergency_override", .required, .record "OverrideRecord"
       [("active", .required, .flag), ("reason", .defaulted, .optional .text)]),
     ("rules", .required, .list DenyRule.schema),
     ("summary", .required, .record "ManifestSummary"
       [("rule_count", .required, count), ("rules_by_category", .required, .dictionary count),
        ("suppressed_rule_count", .required, count)]),
     ("digest", .required, .text)]

def decode : Decoder PolicySet := fun v => do
  let fs ← Decode.fields ["scope", "compliance_level", "enabled_frameworks", "requested_frameworks",
    "emergency_override", "rules", "summary", "digest"] v
  let scope ← fs.required "scope" Scope.decode
  let level ← fs.required "compliance_level" (Decode.enum Level.ofName?)
  let enabled ← fs.required "enabled_frameworks" FrameworkSet.decode
  let requested ← fs.required "requested_frameworks" FrameworkSet.decode
  let record ← fs.required "emergency_override" OverrideRecord.decode
  let rules ← fs.required "rules" (Decode.list DenyRule.decode)
  let summary ← fs.required "summary" Summary.decode
  let digest ← fs.required "digest" Decode.string
  pure ⟨scope, level, enabled, requested, record, rules, summary, digest⟩

end PolicySet

end DenyPolicy
