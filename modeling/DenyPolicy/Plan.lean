import DenyPolicy.Manifest.Basic
/-!
# Plans and dry runs

A plan says, for each rule name of the previous and the next policy set of a
scope, whether applying the next set creates, updates, deletes or keeps it.
Rules are matched by name, a later rule of one name standing for it; the
changes are listed by name.  A previous set for another scope is refused.

A dry run remembers the last set applied to each scope address and plans each
new set against it; it carries out nothing, so every change succeeds.
-/

namespace DenyPolicy

/-- What applying a set does to one rule. -/
inductive ChangeAction where
  | create
  | update
  | delete
  | unchanged
  deriving Repr, DecidableEq, Inhabited

def ChangeAction.name : ChangeAction → String
  | .create => "create"
  | .update => "update"
  | .delete => "delete"
  | .unchanged => "unchanged"

/-- The change to one rule. -/
structure Change where
  ruleName : String
  action : ChangeAction
  deriving Repr, DecidableEq

/-- The changes that take a scope from one set to the next. -/
structure Plan where
  scope : Scope
  policyParent : String
  changes : List Change
  deriving Repr, DecidableEq

namespace Plan

def count (p : Plan) (a : ChangeAction) : Nat := (p.changes.filter (·.action = a)).length

/-- Whether some rule changes. -/
def hasChanges (p : Plan) : Bool := p.changes.any (·.action ≠ .unchanged)

end Plan

def lastRule? (rules : List DenyRule) (name : String) : Option DenyRule :=
  rules.foldl (fun acc r => if r.name = name then some r else acc) none

def ruleNameSet (before after : List DenyRule) : List String :=
  StringSet.ofList ((before ++ after).map (·.name))

def changeOf (before after : List DenyRule) (name : String) : Change :=
  match lastRule? before name, lastRule? after name with
  | none, _ => ⟨name, .create⟩
  | some _, none => ⟨name, .delete⟩
  | some old, some new => ⟨name, if old = new then .unchanged else .update⟩

/-- The plan from a previous set, if any, to the next. -/
def plan (previous : Option PolicySet) (next : PolicySet) : Except PolicyError Plan := do
  let before ← match previous with
    | some prev =>
      if prev.scope.canonicalAddress ≠ next.scope.canonicalAddress then
        .error (.validation next.scope.id "scope"
          ("previous manifest targets " ++ prev.scope.canonicalAddress ++ " but the new one targets " ++
            next.scope.canonicalAddress))
      else pure prev.rules
    | none => pure []
  pure ⟨next.scope, next.scope.policyParent,
    (ruleNameSet before next.rules).map (changeOf before next.rules)⟩

/-- The sets a dry run has applied, the last one for each address. -/
structure DryRun where
  applied : List PolicySet := []
  deriving Repr

/-- How carrying out one change ended. -/
inductive OutcomeStatus where
  | succeeded
  | failed (message : String)
  deriving Repr, DecidableEq

/-- The outcome of one planned change. -/
structure RuleOutcome where
  ruleName : String
  action : ChangeAction
  status : OutcomeStatus
  deriving Repr, DecidableEq

/-- The outcome of a change that was carried out. -/
def Change.succeeded (c : Change) : RuleOutcome := ⟨c.ruleName, c.action, .succeeded⟩

/-- The report of one application: the scope and the outcome of each change. -/
structure ApplyReport where
  scope : String
  outcomes : List RuleOutcome
  deriving Repr, DecidableEq

namespace DryRun

/-- The set last applied to an address. -/
def get? (d : DryRun) (address : String) : Option PolicySet :=
  d.applied.find? (·.scope.canonicalAddress = address)

def remember (d : DryRun) (set : PolicySet) : DryRun :=
  ⟨set :: d.applied.filter (·.scope.canonicalAddress ≠ set.scope.canonicalAddress)⟩

def apply (d : DryRun) (set : PolicySet) : Except PolicyError (ApplyReport × DryRun) := do
  let p ← plan (d.get? set.scope.canonicalAddress) set
  pure (⟨set.scope.id, p.changes.map Change.succeeded⟩, d.remember set)

end DryRun

end DenyPolicy
