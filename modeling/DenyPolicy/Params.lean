import DenyPolicy.Error
import DenyPolicy.Text.Blank
/-!
# Framework parameters

The settings of each framework that decide which of its controls apply:
whether ISO 27001 covers supplier identity federation, which SOC 2 trust
criteria are in scope, the PCI DSS merchant level and the tag that marks the
cardholder data environment, whether HIPAA data is protected health
information and is shared with a business associate, and whether a GDPR scope
is a controller and holds special-category data.

Checking the parameters accepts a merchant level of 1 to 4 and a non-blank
cardholder tag without a double quote or backslash, since the tag is written
inside a quoted literal of a condition.
-/

namespace DenyPolicy

/-- The SOC 2 trust service criteria. -/
inductive TrustCriterion where
  | security
  | availability
  | processingIntegrity
  | confidentiality
  | privacy
  deriving Repr, DecidableEq, Inhabited

namespace TrustCriterion

/-- The five criteria in their order. -/
def all : List TrustCriterion := [.security, .availability, .processingIntegrity, .confidentiality, .privacy]

def name : TrustCriterion → String
  | .security => "security"
  | .availability => "availability"
  | .processingIntegrity => "processing_integrity"
  | .confidentiality => "confidentiality"
  | .privacy => "privacy"

def ofName? (s : String) : Option TrustCriterion := all.find? (fun c => c.name == s)

end TrustCriterion

/-- A set of trust criteria. -/
structure CriterionSet where
  security : Bool := false
  availability : Bool := false
  processingIntegrity : Bool := false
  confidentiality : Bool := false
  privacy : Bool := false
  deriving Repr, DecidableEq, Inhabited

namespace CriterionSet

def mem (s : CriterionSet) : TrustCriterion → Bool
  | .security => s.security
  | .availability => s.availability
  | .processingIntegrity => s.processingIntegrity
  | .confidentiality => s.confidentiality
  | .privacy => s.privacy

def insert (s : CriterionSet) : TrustCriterion → CriterionSet
  | .security => { s with security := true }
  | .availability => { s with availability := true }
  | .processingIntegrity => { s with processingIntegrity := true }
  | .confidentiality => { s with confidentiality := true }
  | .privacy => { s with privacy := true }

def ofList (cs : List TrustCriterion) : CriterionSet := cs.foldl insert {}

/-- The members in criterion order. -/
def toList (s : CriterionSet) : List TrustCriterion := TrustCriterion.all.filter s.mem

end CriterionSet

/-- The settings of the five frameworks. -/
structure FrameworkParams where
  includeSupplierControls : Bool := false
  trustCriteria : CriterionSet := { security := true }
  merchantLevel : Nat := 1
  cdeTag : String := "pci/cde"
  phi : Bool := true
  businessAssociate : Bool := false
  controller : Bool := true
  specialCategory : Bool := false
  deriving Repr, DecidableEq, Inhabited

namespace FrameworkParams

def default : FrameworkParams := {}

def isQuotable (s : String) : Bool := s.toList.all fun c => c ≠ '"' ∧ c ≠ '\\'

/-- Checks the settings for the scope `scope`. -/
def validate (p : FrameworkParams) (scope : String) : Except PolicyError Unit :=
  if p.merchantLevel < 1 ∨ 4 < p.merchantLevel then
    .error (.validation scope "framework_params.pci_dss.merchant_level"
      ("merchant level must be between 1 and 4, got " ++ toString p.merchantLevel))
  else if Text.isBlankText p.cdeTag then
    .error (.validation scope "framework_params.pci_dss.cde_tag"
      "cardholder data environment tag must not be empty")
  else if !isQuotable p.cdeTag then
    .error (.validation scope "framework_params.pci_dss.cde_tag"
      ("cardholder data environment tag '" ++ p.cdeTag ++ "' may not contain quotes or backslashes"))
  else .ok ()

end FrameworkParams

end DenyPolicy
