import DenyPolicy.Json.Basic
/-!
# Typed reading of JSON values

Decoders turn a JSON value into a value of a domain type, under the rules that
stored documents follow:

* a record is an object whose members are looked up by name, unknown members
  being ignored, or an array that lists the members in declaration order;
* a missing member takes its default where it has one and is an error where it
  has none, and `null` is a value only for optional members;
* integers are range-checked for their width, and a floating value is never an
  integer;
* a name of an enumeration is matched exactly.
-/

namespace DenyPolicy

/-- Why a value does not decode. -/
inductive DecodeError where
  | missingField (name : String)
  | wrongType (expected : String)
  | outOfRange
  | unknownVariant (name : String)
  | tooManyElements
  | invalidValue (what : String)
  /-- A schema refused the value, for the reason given. -/
  | rejected (reason : String)
  deriving Repr, DecidableEq

abbrev Decoder (α : Type) := Json → Except DecodeError α

namespace Decode

def bool : Decoder Bool
  | .bool b => .ok b
  | _ => .error (.wrongType "boolean")

def string : Decoder String
  | .str s => .ok s
  | _ => .error (.wrongType "string")

def natBelow (bound : Nat) : Decoder Nat
  | .num (.nat n) => if n < bound then .ok n else .error .outOfRange
  | .num (.negInt _) => .error .outOfRange
  | _ => .error (.wrongType "integer")

def u8 : Decoder Nat := natBelow 256

def u32 : Decoder Nat := natBelow (Nat.pow 2 32)

def u64 : Decoder Nat := natBelow (Nat.pow 2 64)

def items (d : Decoder α) : List Json → Except DecodeError (List α)
  | [] => .ok []
  | x :: xs => do
    let y ← d x
    let ys ← items d xs
    pure (y :: ys)

def list (d : Decoder α) : Decoder (List α)
  | .arr xs => items d xs
  | _ => .error (.wrongType "array")

def option (d : Decoder α) : Decoder (Option α)
  | .null => .ok none
  | v => (d v).map some

def enum (ofName? : String → Option α) : Decoder α
  | .str s => match ofName? s with
    | some a => .ok a
    | none => .error (.unknownVariant s)
  | _ => .error (.wrongType "string")

def parsed (what : String) (read? : String → Option α) : Decoder α
  | .str s => match read? s with
    | some a => .ok a
    | none => .error (.invalidValue what)
  | _ => .error (.wrongType "string")

/-- The members of a record: by name when it is an object, by position when it
is an array. -/
structure Fields where
  get? : String → Option Json

def indexOf? (names : List String) (name : String) : Option Nat := names.idxOf? name

def fields (names : List String) : Decoder Fields
  | .obj fs => .ok ⟨Json.field? fs⟩
  | .arr xs =>
    if names.length < xs.length then .error .tooManyElements
    else .ok ⟨fun name => (indexOf? names name).bind fun i => xs[i]?⟩
  | _ => .error (.wrongType "object")

def Fields.required (fs : Fields) (name : String) (d : Decoder α) : Except DecodeError α :=
  match fs.get? name with
  | some v => d v
  | none => .error (.missingField name)

def Fields.withDefault (fs : Fields) (name : String) (default : α) (d : Decoder α) :
    Except DecodeError α :=
  match fs.get? name with
  | some v => d v
  | none => .ok default

def Fields.optional (fs : Fields) (name : String) (d : Decoder α) : Except DecodeError (Option α) :=
  fs.withDefault name none (option d)

end Decode

end DenyPolicy
