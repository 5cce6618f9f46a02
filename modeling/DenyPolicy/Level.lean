import DenyPolicy.Error
import DenyPolicy.Text.Blank
/-!
# Compliance levels

A compliance level is one of baseline < medium < high < maximum.  The level of
an input is the join of what its data classification demands and what each of
its enabled frameworks demands:

* restricted data demands maximum, confidential high, internal medium, public
  baseline;
* HIPAA and PCI DSS demand maximum, SOC 2 high, ISO 27001 medium and GDPR
  baseline.

A level caps how long a session may last: 4, 8, 12 or 24 hours from maximum
down to baseline.  Framework sets are sets of the five frameworks, listed in
the order ISO 27001, SOC 2, PCI DSS, HIPAA, GDPR.
-/

namespace DenyPolicy

/-- How sensitive the data of a scope is. -/
inductive Classification where
  | publicData
  | internalData
  | confidentialData
  | restrictedData
  deriving Repr, DecidableEq, Inhabited

/-- How strictly a scope is guarded. -/
inductive Level where
  | baseline
  | medium
  | high
  | maximum
  deriving Repr, DecidableEq, Inhabited

/-- The regulatory frameworks that rules come from. -/
inductive Framework where
  | iso27001
  | soc2
  | pciDss
  | hipaa
  | gdpr
  deriving Repr, DecidableEq, Inhabited

namespace Classification

def name : Classification → String
  | .publicData => "public"
  | .internalData => "internal"
  | .confidentialData => "confidential"
  | .restrictedData => "restricted"

def rank : Classification → Nat
  | .publicData => 0
  | .internalData => 1
  | .confidentialData => 2
  | .restrictedData => 3

instance : LE Classification := ⟨fun a b => a.rank ≤ b.rank⟩
instance (a b : Classification) : Decidable (a ≤ b) := inferInstanceAs (Decidable (a.rank ≤ b.rank))

def ofName? : String → Option Classification
  | "public" => some .publicData
  | "internal" => some .internalData
  | "confidential" => some .confidentialData
  | "restricted" => some .restrictedData
  | _ => none

/-- Reads a classification in any ASCII case and with blanks around it, for the
scope `scope`. -/
def parseFor (scope raw : String) : Except PolicyError Classification :=
  let key := Text.asciiLower (Text.trim raw)
  match ofName? key with
  | some c => .ok c
  | none => .error (.validation scope "data_classification"
      ("unknown classification '" ++ key ++ "' (expected public, internal, confidential, restricted)"))

end Classification

namespace Level

def name : Level → String
  | .baseline => "baseline"
  | .medium => "medium"
  | .high => "high"
  | .maximum => "maximum"

def rank : Level → Nat
  | .baseline => 0
  | .medium => 1
  | .high => 2
  | .maximum => 3

instance : LE Level := ⟨fun a b => a.rank ≤ b.rank⟩
instance (a b : Level) : Decidable (a ≤ b) := inferInstanceAs (Decidable (a.rank ≤ b.rank))

def ofName? : String → Option Level
  | "baseline" => some .baseline
  | "medium" => some .medium
  | "high" => some .high
  | "maximum" => some .maximum
  | _ => none

/-- The higher of two levels. -/
def join (a b : Level) : Level := if a.rank ≤ b.rank then b else a

def sessionCeilingHours : Level → Nat
  | .maximum => 4
  | .high => 8
  | .medium => 12
  | .baseline => 24

def ofClassification : Classification → Level
  | .restrictedData => .maximum
  | .confidentialData => .high
  | .internalData => .medium
  | .publicData => .baseline

end Level

namespace Framework

/-- The five frameworks in their order. -/
def all : List Framework := [.iso27001, .soc2, .pciDss, .hipaa, .gdpr]

/-- The name that documents use. -/
def name : Framework → String
  | .iso27001 => "iso27001"
  | .soc2 => "soc2"
  | .pciDss => "pci_dss"
  | .hipaa => "hipaa"
  | .gdpr => "gdpr"

def slug : Framework → String
  | .iso27001 => "iso27001"
  | .soc2 => "soc2"
  | .pciDss => "pci-dss"
  | .hipaa => "hipaa"
  | .gdpr => "gdpr"

/-- The level that a framework demands. -/
def level : Framework → Level
  | .hipaa | .pciDss => .maximum
  | .soc2 => .high
  | .iso27001 => .medium
  | .gdpr => .baseline

def ofName? (s : String) : Option Framework := all.find? (fun f => f.name == s)

def parse (raw : String) : Except PolicyError Framework :=
  let key := Text.replaceChar (Text.asciiLower (Text.trim raw)) '-' "_"
  match ofName? key with
  | some f => .ok f
  | none => .error (.validation "-" "enabled_frameworks"
      ("unknown framework '" ++ raw ++ "' (expected one of iso27001, soc2, pci_dss, hipaa, gdpr)"))

end Framework

/-- A set of frameworks. -/
structure FrameworkSet where
  iso27001 : Bool := false
  soc2 : Bool := false
  pciDss : Bool := false
  hipaa : Bool := false
  gdpr : Bool := false
  deriving Repr, DecidableEq, Inhabited

namespace FrameworkSet

def mem (s : FrameworkSet) : Framework → Bool
  | .iso27001 => s.iso27001
  | .soc2 => s.soc2
  | .pciDss => s.pciDss
  | .hipaa => s.hipaa
  | .gdpr => s.gdpr

def insert (s : FrameworkSet) : Framework → FrameworkSet
  | .iso27001 => { s with iso27001 := true }
  | .soc2 => { s with soc2 := true }
  | .pciDss => { s with pciDss := true }
  | .hipaa => { s with hipaa := true }
  | .gdpr => { s with gdpr := true }

/-- The empty set. -/
def empty : FrameworkSet := {}

def ofList (fs : List Framework) : FrameworkSet := fs.foldl insert empty

/-- The members in framework order. -/
def toList (s : FrameworkSet) : List Framework := Framework.all.filter s.mem

def isEmpty (s : FrameworkSet) : Bool := s.toList.isEmpty

end FrameworkSet

/-- The level demanded by a classification and a set of frameworks together. -/
def Level.compute (frameworks : FrameworkSet) (c : Classification) : Level :=
  frameworks.toList.foldl (fun l f => l.join f.level) (Level.ofClassification c)

end DenyPolicy
