/-!
# Errors of the engine

Each way a compilation can be refused, with the scope it concerns.  The text
of an error names the scope and, for the two field checks, the field at fault.
-/

namespace DenyPolicy

/-- Why the engine refused an input. -/
inductive PolicyError where
  /-- A value is malformed. -/
  | validation (scope field message : String)
  /-- The values are well formed but cannot be used together. -/
  | configuration (scope field message : String)
  /-- Two rules of one name differ. -/
  | conflict (scope ruleName : String)
  /-- An emergency override was asked for without a usable reason. -/
  | emergencyOverride (scope message : String)
  /-- A configuration file could not be read. -/
  | load (path message : String)
  /-- A manifest could not be written. -/
  | serialization (scope message : String)
  deriving Repr, DecidableEq, Inhabited

namespace PolicyError

/-- The text of an error. -/
def message : PolicyError → String
  | .validation scope field msg =>
    "validation failed for scope '" ++ scope ++ "', field '" ++ field ++ "': " ++ msg
  | .configuration scope field msg =>
    "configuration error for scope '" ++ scope ++ "', field '" ++ field ++ "': " ++ msg
  | .conflict scope name =>
    "rule name conflict in scope '" ++ scope ++ "': '" ++ name ++ "' emitted twice with different content"
  | .emergencyOverride scope msg => "emergency override rejected for scope '" ++ scope ++ "': " ++ msg
  | .load path msg => "failed to load configuration from " ++ path ++ ": " ++ msg
  | .serialization scope msg => "failed to serialize manifest for scope '" ++ scope ++ "': " ++ msg

end PolicyError

end DenyPolicy
