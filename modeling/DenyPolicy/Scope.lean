import DenyPolicy.Error
import DenyPolicy.Text.Blank
/-!
# Scopes

A scope is the node of the resource hierarchy that a policy attaches to: an
organization, a folder or a project.  Resolving a scope checks its identifier
against the tier's grammar and gives its canonical resource address.

* An organization is a non-empty string of ASCII digits.
* A folder is `folders/` and a non-empty string of ASCII digits.
* A project has 6 to 30 characters, each a lowercase ASCII letter, a digit or
  `-`; the length is checked first.

The address is the resource manager's host, the tier's collection and the bare
number or name; a policy attaches at the address with each `/` written `%2F`.
-/

namespace DenyPolicy

/-- The three tiers of the resource hierarchy, from the root down. -/
inductive Tier where
  | organization
  | folder
  | project
  deriving Repr, DecidableEq, Inhabited

namespace Tier

/-- The tier's name. -/
def name : Tier → String
  | .organization => "organization"
  | .folder => "folder"
  | .project => "project"

def rank : Tier → Nat
  | .organization => 0
  | .folder => 1
  | .project => 2

/-- The collection that addresses of the tier live in. -/
def collection : Tier → String
  | .organization => "organizations"
  | .folder => "folders"
  | .project => "projects"

def ofName? : String → Option Tier
  | "organization" => some .organization
  | "org" => some .organization
  | "folder" => some .folder
  | "project" => some .project
  | _ => none

end Tier

/-- A scope as an input names it. -/
structure ScopeRef where
  tier : Tier
  id : String
  deriving Repr, DecidableEq, Inhabited

/-- A resolved scope with its canonical address. -/
structure Scope where
  tier : Tier
  id : String
  canonicalAddress : String
  deriving Repr, DecidableEq, Inhabited

def resourceManager : String := "cloudresourcemanager.googleapis.com"

def isNumeric (s : String) : Bool := !s.isEmpty && s.toList.all Char.isDigit

def isProjectChar (c : Char) : Bool := ('a' ≤ c && c ≤ 'z') || ('0' ≤ c && c ≤ '9') || c = '-'

namespace Scope

def invalid (id message : String) : PolicyError := .validation id "scope.id" message

/-- The bare number or name that a valid id addresses. -/
def bareId (tier : Tier) (id : String) : Except PolicyError String :=
  match tier with
  | .organization =>
    if isNumeric id then .ok id else .error (invalid id "organization id must be a numeric string")
  | .folder =>
    if "folders/".isPrefixOf id ∧ isNumeric (id.drop 8).toString then .ok (id.drop 8).toString
    else .error (invalid id "folder id must have the form 'folders/<numeric>'")
  | .project =>
    let n := id.length
    if n < 6 ∨ 30 < n then
      .error (invalid id ("project id must be 6-30 characters, got " ++ toString n))
    else if id.toList.all isProjectChar then .ok id
    else .error (invalid id "project id may contain only lowercase letters, digits, and hyphens")

/-- Resolves a tier and id to a scope. -/
def resolve (tier : Tier) (id : String) : Except PolicyError Scope := do
  let bare ← bareId tier id
  pure ⟨tier, id, resourceManager ++ "/" ++ tier.collection ++ "/" ++ bare⟩

/-- The address with every `/` written `%2F`. -/
def attachmentPoint (s : Scope) : String := Text.replaceChar s.canonicalAddress '/' "%2F"

/-- The collection that the scope's deny policies live in. -/
def policyParent (s : Scope) : String := "policies/" ++ s.attachmentPoint ++ "/denypolicies"

def display (s : Scope) : String := s.tier.name ++ " " ++ s.id

end Scope

/-- Resolves a named scope. -/
def ScopeRef.resolve (r : ScopeRef) : Except PolicyError Scope := Scope.resolve r.tier r.id

end DenyPolicy
