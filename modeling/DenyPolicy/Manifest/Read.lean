import DenyPolicy.Manifest.Json
import DenyPolicy.Schema.Text
/-!
# Reading manifests

A stored manifest is read in two steps: its text is read against the manifest
schema, which says where the text fails when it does, and the value read is
decoded into a policy set.
-/

namespace DenyPolicy

/-- A policy set from the text of a manifest, or why the text is not one. -/
def PolicySet.fromJsonStr (text : String) : Except String PolicySet :=
  match PolicySet.schema.readTextOrMessage text with
  | .error why => .error why
  | .ok v =>
    match PolicySet.decode v with
    | .ok set => .ok set
    | .error _ => .error "not a policy set"

end DenyPolicy
