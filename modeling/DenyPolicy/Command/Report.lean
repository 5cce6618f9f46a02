import DenyPolicy.Plan
import DenyPolicy.Audit.Event
import DenyPolicy.Text.Blank
/-!
# What the commands print

The texts that the commands print: the signals behind a compliance level, the
table of a plan, the line that reports a written manifest, and the table of
recent audit events.  Columns are padded with blanks to a fixed width and never
cut, so a long value pushes the rest of its row to the right.
-/

namespace DenyPolicy

namespace Report

def signal (name : String) (l : Level) : String :=
  "  " ++ Text.padRight name 24 ++ " " ++ l.name ++ "\n"

/-- The level that a set of frameworks and a classification demand, and why:
the classification's level, then each framework's level in framework order. -/
def level (enabled : FrameworkSet) (c : Classification) : String :=
  let l := Level.compute enabled c
  "Compliance level: " ++ l.name ++ "\n" ++
  "Session ceiling:  " ++ toString l.sessionCeilingHours ++ "h\n" ++
  "Signals:\n" ++
  signal ("classification " ++ c.name) (Level.ofClassification c) ++
  String.join (enabled.toList.map fun f => signal ("framework " ++ f.name) f.level) ++
  (if enabled.isEmpty then "  no framework enabled: no rules will be emitted at any level\n" else "")

/-- The table of a plan for the set it leads to. -/
def plan (p : Plan) (next : PolicySet) : String :=
  "Plan for " ++ p.scope.tier.name ++ " " ++ p.scope.id ++ " (level " ++ next.level.name ++ ") under " ++
    p.policyParent ++ "\n" ++
  (if next.emergencyOverride.active then "Emergency override active: all rules are withheld.\n" else "") ++
  Text.padRight "ACTION" 10 ++ " RULE\n" ++
  String.ofList (List.replicate 60 '-') ++ "\n" ++
  String.join (p.changes.map fun c => Text.padRight c.action.name 10 ++ " " ++ c.ruleName ++ "\n") ++
  toString (p.count .create) ++ " to create, " ++ toString (p.count .update) ++ " to update, " ++
  toString (p.count .delete) ++ " to delete, " ++ toString (p.count .unchanged) ++ " unchanged\n"

/-- The lines that report a manifest written to `path`. -/
def compiled (set : PolicySet) (path : String) : String :=
  "Compiled " ++ set.scope.tier.name ++ " " ++ set.scope.id ++ " at " ++ set.level.name ++ ": " ++
    toString set.summary.ruleCount ++ " rule(s) -> " ++ path ++ "\n" ++
  (if set.emergencyOverride.active then
    "  EMERGENCY OVERRIDE ACTIVE (" ++ set.emergencyOverride.reason.getD "-" ++ "): " ++
      toString set.summary.suppressedRuleCount ++ " rule(s) withheld\n"
  else "")

def eventDetail (e : AuditEvent) : String :=
  match e.ruleName, e.principal, e.detail with
  | some r, some p, d => r ++ " " ++ p ++ " " ++ d.getD ""
  | _, _, some d => d
  | _, _, none => "-"

def eventRow (e : AuditEvent) : String :=
  Text.padRight (e.timestamp.dateTimeText " ") 20 ++ " " ++ Text.padRight e.scope 24 ++ " " ++
    Text.padRight e.action.name 30 ++ " " ++ Text.trimEnd (eventDetail e) ++ "\n"

def events (es : List AuditEvent) : String :=
  if es.isEmpty then "No audit events.\n"
  else
    Text.padRight "TIMESTAMP" 20 ++ " " ++ Text.padRight "SCOPE" 24 ++ " " ++ Text.padRight "ACTION" 30 ++
      " DETAIL\n" ++ String.ofList (List.replicate 96 '-') ++ "\n" ++ String.join (es.map eventRow)

def violation (line : Nat) (expected actual : String) : String :=
  "INTEGRITY VIOLATION at line " ++ toString line ++ ":\n" ++
  "  Expected previous_hash: " ++ expected ++ "\n" ++
  "  Actual previous_hash:   " ++ actual ++ "\n\n" ++
  "The audit log may have been tampered with.\n"

end Report

end DenyPolicy
