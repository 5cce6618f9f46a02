import DenyPolicy.Control.Spec
/-!
# Framework control tables

The controls of each of the five frameworks, in the order their rules are
emitted.  Most deny their permissions to everyone; the activation of each says
at which level, classification or framework setting it applies.
-/

namespace DenyPolicy

namespace Control

/-- ISO 27001 Annex A controls. -/
def iso27001 : List Control := [
  ⟨"access-control",
    "A.9 access control: only break-glass and automation may change IAM roles",
    ["iam.googleapis.com/roles.create", "iam.googleapis.com/roles.delete",
      "iam.googleapis.com/roles.update"],
    none, .everyone, .always⟩,
  ⟨"cryptography",
    "A.10 cryptography: protect key material from destruction and rotation changes",
    ["cloudkms.googleapis.com/cryptoKeyVersions.destroy", "cloudkms.googleapis.com/cryptoKeys.update"],
    none, .everyone, .atLeast .medium⟩,
  ⟨"logging-monitoring",
    "A.12.4 logging and monitoring: audit log routing cannot be removed",
    ["logging.googleapis.com/sinks.delete", "logging.googleapis.com/sinks.update"],
    none, .everyone, .atLeast .medium⟩,
  ⟨"communications-security",
    "A.13 communications security: network perimeter changes are restricted",
    ["compute.googleapis.com/firewalls.create", "compute.googleapis.com/firewalls.delete",
      "compute.googleapis.com/firewalls.update"],
    none, .everyone, .atLeast .high⟩,
  ⟨"information-classification",
    "A.8.2 information classification: unlabelled storage cannot be shared",
    ["storage.googleapis.com/buckets.setIamPolicy"],
    some (.missingTag "compliance/data-classification" "labelled"), .everyone,
    .classification .confidentialData⟩,
  ⟨"supplier-relationships",
    "A.15 supplier relationships: external identity federation is controlled",
    ["iam.googleapis.com/workloadIdentityPoolProviders.create",
      "iam.googleapis.com/workloadIdentityPoolProviders.update"],
    none, .everyone, .param .supplierControls⟩]

/-- SOC 2 trust services criteria controls. -/
def soc2 : List Control := [
  ⟨"cc6-logical-access",
    "CC6.1 logical access: long-lived service account keys cannot be minted",
    ["iam.googleapis.com/serviceAccountKeys.create", "iam.googleapis.com/serviceAccountKeys.upload"],
    none, .everyone, .param (.criterion .security)⟩,
  ⟨"cc7-system-monitoring",
    "CC7.2 system monitoring: audit trails and alerting cannot be disabled",
    ["logging.googleapis.com/sinks.delete", "monitoring.googleapis.com/alertPolicies.delete"],
    none, .everyone, .all [.param (.criterion .security), .atLeast .high]⟩,
  ⟨"cc8-change-management",
    "CC8.1 change management: production deploys need recorded approvals",
    ["run.googleapis.com/services.update", "container.googleapis.com/clusters.update"],
    some .insufficientApprovals, .everyone, .all [.param (.criterion .security), .atLeast .maximum]⟩,
  ⟨"a1-availability",
    "A1.2 availability: backups and databases cannot be deleted",
    ["cloudsql.googleapis.com/backupRuns.delete", "cloudsql.googleapis.com/instances.delete"],
    none, .everyone, .param (.criterion .availability)⟩,
  ⟨"pi1-processing-integrity",
    "PI1 processing integrity: pipeline definitions are write-protected",
    ["dataflow.googleapis.com/jobs.cancel", "dataflow.googleapis.com/jobs.updateContents"],
    none, .everyone, .param (.criterion .processingIntegrity)⟩,
  ⟨"c1-confidentiality",
    "C1.1 confidentiality: unencrypted buckets cannot be exposed",
    ["storage.googleapis.com/buckets.setIamPolicy"],
    some (.missingTag "compliance/encryption" "cmek"), .everyone, .param (.criterion .confidentiality)⟩,
  ⟨"p4-privacy-retention",
    "P4.2 privacy: personal-data datasets cannot be deleted outside retention",
    ["bigquery.googleapis.com/datasets.delete"],
    some (.missingTag "compliance/retention" "expired"), .everyone, .param (.criterion .privacy)⟩]

/-- PCI DSS requirement controls. -/
def pciDss : List Control := [
  ⟨"req1-network-controls",
    "Req 1: network security controls around the CDE are change-restricted",
    ["compute.googleapis.com/firewalls.create", "compute.googleapis.com/firewalls.delete",
      "compute.googleapis.com/firewalls.update"],
    some .inCardholderEnvironment, .everyone, .always⟩,
  ⟨"req3-protect-stored-data",
    "Req 3: keys protecting stored account data cannot be destroyed",
    ["cloudkms.googleapis.com/cryptoKeyVersions.destroy",
      "cloudkms.googleapis.com/cryptoKeyVersions.disable"],
    none, .everyone, .always⟩,
  ⟨"req7-restrict-access",
    "Req 7: access to CDE resources cannot be widened",
    ["cloudresourcemanager.googleapis.com/projects.setIamPolicy",
      "storage.googleapis.com/buckets.setIamPolicy"],
    some .inCardholderEnvironment, .everyone, .always⟩,
  ⟨"req8-mfa",
    "Req 8.4: administrative access into the CDE requires MFA",
    ["compute.googleapis.com/instances.setMetadata", "iap.googleapis.com/tunnelInstances.accessViaIAP"],
    some (.all [.inCardholderEnvironment, .missingMfa]), .everyone, .always⟩,
  ⟨"req10-logging",
    "Req 10: audit logs of CDE activity cannot be removed or rerouted",
    ["logging.googleapis.com/buckets.delete", "logging.googleapis.com/sinks.delete",
      "logging.googleapis.com/sinks.update"],
    none, .everyone, .always⟩,
  ⟨"req11-security-testing",
    "Req 11: vulnerability findings cannot be muted",
    ["securitycenter.googleapis.com/findings.setMute"],
    none, .everyone, .param (.merchantLevelAtMost 2)⟩]

/-- HIPAA security rule controls. -/
def hipaa : List Control := [
  ⟨"164-312a-access-control",
    "164.312(a): unique user identification, no shared service account keys",
    ["iam.googleapis.com/serviceAccountKeys.create", "iam.googleapis.com/serviceAccounts.getAccessToken"],
    none, .everyone, .always⟩,
  ⟨"164-312b-audit-controls",
    "164.312(b): activity on ePHI systems stays recorded",
    ["logging.googleapis.com/sinks.delete", "logging.googleapis.com/sinks.update"],
    none, .everyone, .always⟩,
  ⟨"164-312c-integrity",
    "164.312(c): ePHI stores cannot be altered or destroyed outside approved paths",
    ["healthcare.googleapis.com/datasets.delete", "healthcare.googleapis.com/fhirStores.delete"],
    none, .everyone, .param .phi⟩,
  ⟨"164-312d-authentication",
    "164.312(d): person or entity authentication for ePHI access",
    ["healthcare.googleapis.com/fhirResources.get", "healthcare.googleapis.com/fhirResources.update"],
    some .missingMfa, .everyone, .param .phi⟩,
  ⟨"164-312e-transmission-security",
    "164.312(e): ePHI transmission paths cannot be downgraded",
    ["compute.googleapis.com/sslPolicies.update", "compute.googleapis.com/targetHttpsProxies.setSslPolicy"],
    none, .everyone, .param .phi⟩,
  ⟨"164-314-business-associate",
    "164.314: data shared under a BAA cannot be exported to unmanaged projects",
    ["bigquery.googleapis.com/tables.export", "healthcare.googleapis.com/fhirStores.export"],
    some (.missingTag "compliance/baa" "covered"), .everyone, .param .businessAssociate⟩]

/-- GDPR article controls. -/
def gdpr : List Control := [
  ⟨"art25-data-protection-by-design",
    "Art. 25: personal-data stores cannot be made publicly readable",
    ["bigquery.googleapis.com/datasets.setIamPolicy", "storage.googleapis.com/buckets.setIamPolicy"],
    some (.missingTag "compliance/personal-data" "none"), .everyone, .always⟩,
  ⟨"art32-security-of-processing",
    "Art. 32: encryption keys for personal data cannot be destroyed",
    ["cloudkms.googleapis.com/cryptoKeyVersions.destroy", "cloudkms.googleapis.com/cryptoKeys.update"],
    none, .everyone, .atLeast .medium⟩,
  ⟨"art44-international-transfers",
    "Art. 44: personal data cannot leave EU-resident resources",
    ["bigquery.googleapis.com/tables.export", "storage.googleapis.com/objects.create"],
    some (.missingTag "compliance/residency" "eu"), .everyone, .param .controller⟩,
  ⟨"art9-special-categories",
    "Art. 9: special-category data requires MFA for every read",
    ["bigquery.googleapis.com/tables.getData", "storage.googleapis.com/objects.get"],
    some (.all [.missingTag "compliance/special-category" "false", .missingMfa]), .everyone,
    .param .specialCategory⟩]

def table : Framework → List Control
  | .iso27001 => iso27001
  | .soc2 => soc2
  | .pciDss => pciDss
  | .hipaa => hipaa
  | .gdpr => gdpr

end Control

/-- The rules of the enabled frameworks' tables, framework by framework. -/
def frameworkRules (enabled : FrameworkSet) (ctx : Context) (exceptions : List String) :
    List DenyRule :=
  enabled.toList.flatMap fun f => compileTable (.framework f) (Control.table f) ctx exceptions

end DenyPolicy
