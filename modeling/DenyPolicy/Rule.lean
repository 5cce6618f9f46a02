import DenyPolicy.Level
/-!
# Deny rules

A deny rule refuses a set of permissions to a set of principals, except to the
scope's exception principals, and may carry a condition that the enforcement
point evaluates.  A rule is named by its category's slug and its control's id,
so that compiling the same input twice gives identical rules.

Permission and principal sets are kept as strictly increasing lists of
strings: that is both their stored form and the order they are written in.
-/

namespace DenyPolicy

/-- Where a rule comes from: a framework's table or the shared controls. -/
inductive RuleCategory where
  | framework (f : Framework)
  | shared
  deriving Repr, DecidableEq, Inhabited

namespace RuleCategory

/-- The name that documents use. -/
def name : RuleCategory → String
  | .framework f => f.name
  | .shared => "shared"

def slug : RuleCategory → String
  | .framework f => f.slug
  | .shared => "shared"

def ofName? (s : String) : Option RuleCategory :=
  if s == "shared" then some .shared else (Framework.ofName? s).map .framework

end RuleCategory

def allPrincipals : String := "principalSet://goog/public:all"

/-- The name of a rule of a category and control. -/
def ruleName (c : RuleCategory) (controlId : String) : String := c.slug ++ "-" ++ controlId

namespace StringSet

def insert (s : String) : List String → List String
  | [] => [s]
  | t :: rest => if s < t then s :: t :: rest else if s = t then t :: rest else t :: insert s rest

def ofList (xs : List String) : List String := xs.foldl (fun acc x => insert x acc) []

end StringSet

def dedupFirst (xs : List String) : List String :=
  xs.foldl (fun acc x => if acc.contains x then acc else acc ++ [x]) []

/-- A deny rule. -/
structure DenyRule where
  name : String
  category : RuleCategory
  controlId : String
  description : String
  deniedPermissions : List String
  deniedPrincipals : List String
  exceptionPrincipals : List String
  condition : Option String
  deriving Repr, DecidableEq, Inhabited

end DenyPolicy
