import DenyPolicy.Input
import DenyPolicy.Json.Print
import DenyPolicy.Yaml.Read
import DenyPolicy.Schema.Value
import DenyPolicy.Schema.Text
/-!
# Loading configuration files

A configuration file is JSON when its extension is `json` in any case, and
YAML otherwise.  Before the document is read as an input, its classification
is checked against its scope, so that a bad classification is reported for
that scope rather than as an unreadable file: when the document names its
scope id as a string and has a `data_classification` member, a string there
is read in any case and with blanks around it, and any other value is refused
with its text quoted.  The document is then checked against the input's schema,
where YAML, unlike JSON, lets `null` stand for an empty section or list.  Every
other fault of the file is a load error, saying what the reader found wrong.
-/

namespace DenyPolicy

/-- The two formats of configuration files. -/
inductive DocumentFormat where
  | json
  | yaml
  deriving Repr, DecidableEq

def extension? (path : String) : Option String :=
  let name := (Text.splitOnChar path '/').getLast?.getD path
  match Text.splitOnChar name '.' with
  | [] | [_] => none
  | parts => if name.startsWith "." ∧ parts.length = 2 then none else parts.getLast?

/-- The format of a file by its extension. -/
def DocumentFormat.ofPath (path : String) : DocumentFormat :=
  match extension? path with
  | some ext => if Text.asciiLower ext = "json" then .json else .yaml
  | none => .yaml

/-- The classification a document states, checked for its scope: `none` when
there is no scope id to report against, and the text of the value otherwise. -/
def checkClassification (scopeId : Option String) (raw : Option String) (rendered : String) :
    Except PolicyError (Option Classification) :=
  match scopeId with
  | none => .ok none
  | some scope =>
    match raw with
    | some r => (Classification.parseFor scope r).map some
    | none => .error (.validation scope "data_classification" ("classification must be a string, got " ++ rendered))

/-- A document with its member `key` replaced by `v`. -/
def Json.setField (doc : Json) (key : String) (v : Json) : Json :=
  match doc with
  | .obj fs => .obj (fs.map fun (k, w) => if k = key then (k, v) else (k, w))
  | d => d

/-- Reads an input from JSON text with the typed reader alone: the text is
checked against the input's schema as it is read, so a member the schema does
not know is only skipped, and a fault says where it stands. -/
def CompilationInput.fromJsonText (text : String) : Except String CompilationInput :=
  match CompilationInput.schema.readTextOrMessage text with
  | .ok v => (CompilationInput.decode v).mapError fun _ => "invalid configuration"
  | .error msg => .error msg

/-- The scope id a JSON document names, when it is a string. -/
def Json.scopeId? (doc : Json) : Option String :=
  (doc.get? "scope").bind (·.get? "id") |>.bind Json.getStr?

/-- A JSON document with its classification checked for its scope and written by
its canonical name. -/
def classifyJson (doc : Json) : Except PolicyError Json :=
  match doc.get? "data_classification" with
  | some field => do
    match ← checkClassification doc.scopeId? field.getStr? field.compact with
    | some c => pure (doc.setField "data_classification" (.str c.name))
    | none => pure doc
  | none => pure doc

def decodeJson (path : String) (doc : Json) : Except PolicyError CompilationInput := do
  let checked ← (Schema.checkValue ValueRules.json CompilationInput.schema doc.asDocument).mapError
    fun m => .load path (m.message .json)
  match CompilationInput.decode checked with
  | .ok i => pure i
  | .error _ => .error (.load path "invalid configuration")

def loadJson (path text : String) : Except PolicyError CompilationInput := do
  let doc ← match Schema.anything.readTextOrMessage text with
    | .ok v => pure v
    | .error msg => .error (.load path msg)
  decodeJson path (← classifyJson doc)

/-- Reads an input from a YAML document. -/
def loadYaml (path text : String) : Except PolicyError CompilationInput := do
  let doc ← match Yaml.read text with
    | .ok v => pure v
    | .error f => .error (.load path f.message)
  let scopeId := (doc.get? "scope").bind (·.get? "id") |>.bind Yaml.getStr?
  let doc ← match doc.get? "data_classification" with
    | some field =>
      match ← checkClassification scopeId field.getStr? field.debug with
      | some c => pure (doc.setField "data_classification" (.str c.name))
      | none => pure doc
    | none => pure doc
  let checked ← (Schema.checkValue ValueRules.yaml CompilationInput.schema doc).mapError
    fun m => .load path (m.message .plain)
  match CompilationInput.decode checked with
  | .ok i => pure i
  | .error _ => .error (.load path "invalid configuration")

/-- Reads an input from the text of the file at `path`. -/
def loadInput (path text : String) : Except PolicyError CompilationInput :=
  match DocumentFormat.ofPath path with
  | .json => loadJson path text
  | .yaml => loadYaml path text

end DenyPolicy
