import DenyPolicy.Command.Host
import DenyPolicy.Toml.Read
/-!
# Settings of a project

The commands keep their files under `.pf/` in the project root: the audit log,
the manifests and the remote break-glass state.  A settings file
`.pf/config.toml` may move any of them, a relative path there being read from
the project root, and set the log filter.  The settings file is a TOML document
whose root table holds only those four keys, each with a string; anything else
is refused, and the fault is shown in the file's text.
-/

namespace DenyPolicy

/-- Where the commands keep their files. -/
structure Settings where
  projectRoot : String
  auditLog : String
  outputDir : String
  breakGlassState : String
  logFilter : String
  deriving Repr, DecidableEq

def defaultLogFilter : String := "pf_policy=info,pf_cli=info"

/-- The settings of a project that has no settings file. -/
def Settings.forProject (root : String) : Settings :=
  let dir := joinPath root ".pf"
  { projectRoot := root, auditLog := joinPath dir "audit.jsonl", outputDir := joinPath dir "manifests",
    breakGlassState := joinPath dir "break_glass.json", logFilter := defaultLogFilter }

def settingKeys : List String := ["audit_log", "output_dir", "break_glass_state", "log_filter"]

def settingExpecting (key : String) : String :=
  if key = "log_filter" then "a string" else "path string"

/-- The settings a settings file sets, in document order: each entry of its root
table must be one of the four keys and hold text.  The first entry that is not
gives the fault, at its key or at its value. -/
def settingEntries (entries : List Toml.Entry) : Except Toml.Fault (List (String × String)) :=
  entries.mapM fun e =>
    if e.key ∉ settingKeys then
      .error ⟨"unknown field `" ++ e.key ++ "`, expected one of `audit_log`, `output_dir`, `break_glass_state`, `log_filter`",
        e.keySpan⟩
    else
      match e.value with
      | .text v => .ok (e.key, v)
      | .other found => .error ⟨"invalid type: " ++ found.describe .plain ++ ", expected " ++ settingExpecting e.key, e.valueSpan⟩

def readSettingsFile (text : String) : Except String (List (String × String)) :=
  (Toml.read text >>= settingEntries).mapError (Toml.Fault.render text)

/-- Settings with the entries of a settings file laid over them. -/
def Settings.withEntries (s : Settings) (entries : List (String × String)) : Settings :=
  entries.foldl (fun s (k, v) =>
    match k with
    | "audit_log" => { s with auditLog := joinPath s.projectRoot v }
    | "output_dir" => { s with outputDir := joinPath s.projectRoot v }
    | "break_glass_state" => { s with breakGlassState := joinPath s.projectRoot v }
    | "log_filter" => { s with logFilter := v }
    | _ => s) s

/-- The settings of a project: the defaults, with its settings file over them
when it has one. -/
def Settings.load [Monad m] [Host m] (root : String) : ExceptT Failure m Settings := do
  let base := Settings.forProject root
  let path := joinPath (joinPath root ".pf") "config.toml"
  if !(← (Host.isPresent path : m Bool)) then return base
  let text ← match ← (Host.readFile path : m (Except ReadFault String)) with
    | .ok t => pure t
    | .error e => throw { message := "failed to read " ++ path, causes := [e.reason] }
  match readSettingsFile text with
  | .ok entries => pure (base.withEntries entries)
  | .error e => throw { message := "failed to parse " ++ path, causes := [e] }

end DenyPolicy
