import DenyPolicy.Json.Print
import DenyPolicy.Json.Decode
import DenyPolicy.Time.Rfc3339
import DenyPolicy.Schema.Basic
/-!
# Audit events

An audit event records that a policy set was compiled, that an emergency
override took effect, or that a request was denied under a rule.  Events are
stored one to a line as compact JSON, their members in a fixed order; the
optional rule, principal and detail are written only when present, the link to
the previous line always, and the metadata with its object members sorted by
name.

Event identifiers are UUIDs, read in the hyphenated, plain, braced or URN
form with digits of either case, and written hyphenated in lowercase.
-/

namespace DenyPolicy

/-- What an audit event records. -/
inductive AuditAction where
  | policyCompiled
  | emergencyOverrideActivated
  | denyPolicyViolation
  deriving Repr, DecidableEq, Inhabited

namespace AuditAction

def name : AuditAction → String
  | .policyCompiled => "policy_compiled"
  | .emergencyOverrideActivated => "emergency_override_activated"
  | .denyPolicyViolation => "deny_policy_violation"

def ofName? : String → Option AuditAction
  | "policy_compiled" => some .policyCompiled
  | "emergency_override_activated" => some .emergencyOverrideActivated
  | "deny_policy_violation" => some .denyPolicyViolation
  | _ => none

end AuditAction

/-- Why a text is not a UUID. -/
inductive UuidFault where
  /-- A character that is neither a hexadecimal digit nor a hyphen, at a place
  counted in bytes from zero. -/
  | character (c : Char) (place : Nat)
  /-- A length in bytes past the longest form, or, with no hyphen, braces or
  prefix, other than 32. -/
  | length (length : Nat)
  /-- Other than five groups between hyphens. -/
  | groupCount (count : Nat)
  /-- A group, counted from zero, of the wrong length. -/
  | groupLength (group length : Nat)
  deriving Repr, DecidableEq

def groupSize (g : Nat) : Nat := if g = 4 then 12 else if g = 0 then 8 else 4

/-- The text of a UUID fault. -/
def UuidFault.message : UuidFault → String
  | .character c i => "invalid character: found `" ++ c.toString ++ "` at " ++ toString i
  | .length n => "invalid length: found " ++ toString n
  | .groupCount n => "invalid group count: expected 5, found " ++ toString n
  | .groupLength g n =>
    "invalid group length in group " ++ toString g ++ ": expected " ++ toString (groupSize g) ++
      ", found " ++ toString n

/-- A UUID as its 32 lowercase hexadecimal digits. -/
structure Uuid where
  digits : List Char
  deriving Repr, DecidableEq, Inhabited

namespace Uuid

def nil : Uuid := ⟨List.replicate 32 '0'⟩

def hexLower? (c : Char) : Option Char :=
  if ('0' ≤ c ∧ c ≤ '9') ∨ ('a' ≤ c ∧ c ≤ 'f') then some c
  else if 'A' ≤ c ∧ c ≤ 'F' then some (Char.ofNat (c.toNat + 32))
  else none

def ofDigits? (cs : List Char) : Option Uuid :=
  if cs.length = 32 then (cs.mapM hexLower?).map Uuid.mk else none

/-- The digits of the hyphenated form, with hyphens after the 8th, 12th, 16th and
20th digit. -/
def hyphenated? (cs : List Char) : Option Uuid :=
  match cs.splitOn '-' with
  | [a, b, c, d, e] =>
    if a.length = 8 ∧ b.length = 4 ∧ c.length = 4 ∧ d.length = 4 ∧ e.length = 12 then
      ofDigits? (a ++ b ++ c ++ d ++ e)
    else none
  | _ => none

def hasUrnPrefix (cs : List Char) : Bool :=
  (cs.take 9).map Char.toLower == "urn:uuid:".toList

/-- Reads a UUID: thirty-two digits, the hyphenated form, or the hyphenated form
in braces or after the URN prefix. -/
def parse? (s : String) : Option Uuid :=
  let cs := s.toList
  match cs.length with
  | 32 => ofDigits? cs
  | 36 => hyphenated? cs
  | 38 => if cs.head? = some '{' ∧ cs.getLast? = some '}' then hyphenated? ((cs.drop 1).dropLast) else none
  | 45 => if hasUrnPrefix cs then hyphenated? (cs.drop 9) else none
  | _ => none

/-- The part of a text that holds the digits, the number of bytes before it, and
whether the plain form is possible: inside braces, after the URN prefix, or the
whole text. -/
def body (cs : List Char) : List Char × Nat × Bool :=
  if 2 ≤ cs.length ∧ cs.head? = some '{' ∧ cs.getLast? = some '}' then ((cs.drop 1).dropLast, 1, false)
  else if hasUrnPrefix cs then (cs.drop 9, 9, false)
  else (cs, 0, true)

def hyphens (offset : Nat) : Nat → List Char → Except UuidFault (List Nat)
  | _, [] => .ok []
  | i, c :: cs =>
    if c = '-' then (hyphens offset (i + 1) cs).map (i :: ·)
    else if (hexLower? c).isSome then hyphens offset (i + 1) cs
    else .error (.character c (i + offset))

/-- The first group whose hyphen is misplaced, given the hyphens' places; when all
four stand right, the last group is the one of the wrong length. -/
def misplacedGroup (size : Nat) (places : List Nat) : UuidFault :=
  let bounds : List (Nat × Nat) := [(0, 8), (9, 13), (14, 18), (19, 23)]
  match ((places.zip bounds).zipIdx).find? (fun ((p, _, stop), _) => p ≠ stop) with
  | some ((p, start, _), g) => .groupLength g (p - start)
  | none => .groupLength 4 (size - 24)

/-- Why a text that `parse?` refuses is no UUID: a length past the 45 bytes of
the longest form, else the first character that cannot stand in one, else the
length of a plain form, else the number of groups, else the first group of the
wrong length.  A text of the length of a hyphenated form (36 bytes, or 38 in
braces, or 45 after the URN prefix) is read as that form: its characters are
placed from the start of its digits, and without hyphens it has one group.
Any other text places characters from its start. -/
def diagnose (s : String) : UuidFault :=
  let size := s.utf8ByteSize
  if 45 < size then .length size else
  let (cs, offset, plain) := body s.toList
  let hyphenatedForm := size = 36 ∨ (size = 38 ∧ offset = 1) ∨ (size = 45 ∧ offset = 9)
  let offset := if hyphenatedForm then 0 else offset
  match hyphens offset 0 cs with
  | .error f => f
  | .ok [] => if plain ∧ !hyphenatedForm then .length size else .groupCount 1
  | .ok places =>
    if places.length = 4 then misplacedGroup size places
    else .groupCount (places.length + 1)

def schema : Schema :=
  .parsed "a formatted UUID string" fun s =>
    match parse? s with
    | some _ => none
    | none => some ("UUID parsing failed: " ++ (diagnose s).message)

/-- The hyphenated lowercase text. -/
def render (u : Uuid) : String :=
  let d := u.digits
  String.ofList (d.take 8 ++ ['-'] ++ (d.drop 8).take 4 ++ ['-'] ++ (d.drop 12).take 4 ++ ['-'] ++
    (d.drop 16).take 4 ++ ['-'] ++ d.drop 20)

end Uuid

/-- An audit event. -/
structure AuditEvent where
  eventId : Uuid := Uuid.nil
  timestamp : Instant := Instant.epoch
  scope : String
  action : AuditAction
  ruleName : Option String := none
  principal : Option String := none
  detail : Option String := none
  previousHash : Option String := none
  /-- Any JSON value, objects sorted by member name. -/
  metadata : Json := .null
  deriving Repr, Inhabited

namespace AuditEvent

def violation (scope rule principal permission : String) : AuditEvent :=
  { scope, action := .denyPolicyViolation, ruleName := some rule, principal := some principal,
    detail := some ("denied " ++ permission) }

/-- The document form of an event. -/
def toJson (e : AuditEvent) : Json :=
  let opt (name : String) : Option String → List (String × Json)
    | some s => [(name, .str s)]
    | none => []
  .obj ([("event_id", .str e.eventId.render), ("timestamp", .str e.timestamp.render),
    ("scope", .str e.scope), ("action", .str e.action.name)] ++
    opt "rule_name" e.ruleName ++ opt "principal" e.principal ++ opt "detail" e.detail ++
    [("previous_hash", match e.previousHash with
      | some h => .str h
      | none => .null),
     ("metadata", e.metadata)])

/-- The stored line of an event. -/
def line (e : AuditEvent) : String := e.toJson.compact

/-- What a stored event holds: the optional rule, principal and detail default to
none, the link is optional, and the metadata is any value. -/
def schema : Schema :=
  .record "AuditEvent"
    [("event_id", .required, Uuid.schema),
     ("timestamp", .required, Instant.schema),
     ("scope", .required, .text),
     ("action", .required, .choice ["policy_compiled", "emergency_override_activated", "deny_policy_violation"] []),
     ("rule_name", .defaulted, .optional .text),
     ("principal", .defaulted, .optional .text),
     ("detail", .defaulted, .optional .text),
     ("previous_hash", .optional, .optional .text),
     ("metadata", .defaulted, .anything)]

/-- Reads an event from its document form. -/
def decode : Decoder AuditEvent := fun v => do
  let fs ← Decode.fields ["event_id", "timestamp", "scope", "action", "rule_name", "principal", "detail",
    "previous_hash", "metadata"] v
  let id ← fs.required "event_id" (Decode.parsed "uuid" Uuid.parse?)
  let t ← fs.required "timestamp" (Decode.parsed "timestamp" Instant.readRelaxed)
  let scope ← fs.required "scope" Decode.string
  let action ← fs.required "action" (Decode.enum AuditAction.ofName?)
  let rule ← fs.optional "rule_name" Decode.string
  let principal ← fs.optional "principal" Decode.string
  let detail ← fs.optional "detail" Decode.string
  let previous ← fs.optional "previous_hash" Decode.string
  let metadata ← fs.withDefault "metadata" .null fun v => .ok v.normalize
  pure ⟨id, t, scope, action, rule, principal, detail, previous, metadata⟩

end AuditEvent

end DenyPolicy
