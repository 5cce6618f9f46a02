import DenyPolicy.Text.Blank
/-!
# The table of commands

Every command of the command line is a `CommandSpec`: its words, what it does,
its plain arguments, its options and the commands under it.  The help text and
the usage lines are built from the table alone.

A help section puts each entry's summary beside it when that fits; when a long
summary would leave less than the right-hand part of a hundred columns, every
entry of the section has its summary on the next line instead.  Options are
listed by rank, then by letter (lowercase before uppercase) or long name.
-/

namespace DenyPolicy

/-- What an option does when given. -/
inductive OptionRole where
  /-- Turns something on. -/
  | switch
  /-- Takes one value, named in the help text. -/
  | value (name : String)
  /-- Shows the command's help. -/
  | help
  /-- Shows the program's version. -/
  | version
  deriving Repr, DecidableEq

/-- An option of a command. -/
structure OptionSpec where
  /-- The name by which a command reads the option. -/
  key : String
  long : Option String := none
  short : Option Char := none
  role : OptionRole
  summary : String
  defaultValue : Option String := none
  /-- The help text lists options by rank first. -/
  rank : Nat
  /-- Whether the option may be given more than once. -/
  repeatable : Bool := false
  /-- Whether its value is a count: a natural number below `2^64`. -/
  counts : Bool := false
  /-- Whether its value names a file, and so may not be empty. -/
  isPath : Bool := false
  required : Bool := false
  deriving Repr

/-- A plain argument of a command. -/
structure ArgumentSpec where
  key : String
  /-- The name of its value, as in `<CONFIG>`. -/
  name : String
  summary : String
  /-- Whether it takes any number of words rather than one. -/
  takesMany : Bool := false
  /-- Whether its words name files, and so may not be empty. -/
  isPath : Bool := false
  required : Bool := true
  deriving Repr

/-- A command: its words on the command line, what it does, its plain
arguments, its options and the commands under it. -/
structure CommandSpec where
  path : String
  about : String
  arguments : List ArgumentSpec := []
  options : List OptionSpec
  commands : List (String × String) := []
  deriving Repr

namespace OptionSpec

def takesValue (o : OptionSpec) : Bool :=
  match o.role with
  | .value _ => true
  | _ => false

/-- How messages and usage lines name an option: by its long name if it has one,
then the name of its value, as `--out <OUT>`, `-n <N>` or `--stdout`. -/
def label (o : OptionSpec) : String :=
  let name := match o.long, o.short with
    | some l, _ => "--" ++ l
    | none, some c => "-" ++ c.toString
    | none, none => ""
  match o.role with
  | .value v => name ++ " <" ++ v ++ ">"
  | _ => name

/-- The option's entry in a help text: letter and long name, as `-v, --verbose`,
with four blanks standing for a missing letter. -/
def column (o : OptionSpec) : String :=
  let value := match o.role with
    | .value v => " <" ++ v ++ ">"
    | _ => ""
  match o.short, o.long with
  | some c, some l => "-" ++ c.toString ++ ", --" ++ l ++ value
  | some c, none => "-" ++ c.toString ++ value
  | none, some l => "    --" ++ l ++ value
  | none, none => value

def sortKey (o : OptionSpec) : Nat × String :=
  let name := match o.short, o.long with
    | some c, _ => c.toLower.toString ++ (if c.isLower then "0" else "1")
    | none, some l => l
    | none, none => ""
  (o.rank, name)

def listedBefore (o p : OptionSpec) : Bool :=
  let (r, n) := o.sortKey
  let (r', n') := p.sortKey
  r < r' || (r == r' && decide (n ≤ n'))

def helpLine (o : OptionSpec) : String × String :=
  (o.summary, match o.defaultValue with
    | some d => "[default: " ++ d ++ "]"
    | none => "")

end OptionSpec

def ArgumentSpec.label (a : ArgumentSpec) (required : Bool) : String :=
  (if required then "<" ++ a.name ++ ">" else "[" ++ a.name ++ "]") ++ (if a.takesMany then "..." else "")

/-- A help section's entries: the entry, its summary and the note after it, and
the width the entry counts with when the section is laid out. -/
structure HelpEntry where
  entry : String
  summary : String
  note : String
  width : Nat

/-- A help section.  With `longest` the widest entry and `taken` the columns
before a summary, every summary goes on the next line, ten columns in, when
`taken` exceeds forty of the hundred columns and some summary and its note
together are wider than what is left; otherwise each stands two columns after
the widest entry.  Options count four more columns, the room for a letter before
a long name. -/
def helpSection (entries : List HelpEntry) (extra : Nat) : String :=
  let longest := entries.foldl (fun w e => max w e.width) 2
  let taken := longest + 4 + extra
  let nextLine := entries.any fun e =>
    taken ≤ 100 && taken > 40 && e.summary.length + e.note.length > 100 - taken
  let text (e : HelpEntry) : String :=
    if e.note.isEmpty then e.summary else if e.summary.isEmpty then e.note else e.summary ++ " " ++ e.note
  String.join (entries.map fun e =>
    if nextLine then "  " ++ e.entry ++ "\n          " ++ text e ++ "\n"
    else "  " ++ Text.padRight e.entry (longest + 2 + extra) ++ text e ++ "\n")

namespace CommandSpec

def listedOptions (c : CommandSpec) : List OptionSpec :=
  c.options.mergeSort OptionSpec.listedBefore

/-- The usage line of the help text: the words, `[OPTIONS]` when some option may
be left out, the options that may not, the plain arguments, and `<COMMAND>` for
a command with commands under it. -/
def usage (c : CommandSpec) : String :=
  let optional := c.options.any fun o => !o.required && (o.role matches .switch || o.role matches .value _)
  let parts := (if optional then ["[OPTIONS]"] else []) ++
    (c.options.filter (·.required)).map (·.label) ++
    c.arguments.map (fun a => a.label a.required) ++
    (if c.commands.isEmpty then [] else ["<COMMAND>"])
  String.join ((c.path :: parts).intersperse " ")

/-- The help text: what the command does, its usage, and its commands, plain
arguments and options. -/
def helpText (c : CommandSpec) : String :=
  let commands := if c.commands.isEmpty then "" else
    "\nCommands:\n" ++ helpSection (c.commands.map fun (n, h) => ⟨n, h, "", n.length⟩) 0
  let arguments := if c.arguments.isEmpty then "" else
    "\nArguments:\n" ++ helpSection (c.arguments.map fun a =>
      let l := a.label a.required
      ⟨l, a.summary, "", l.length⟩) 0
  let options := if c.options.isEmpty then "" else
    "\nOptions:\n" ++ helpSection (c.listedOptions.map fun o =>
      let (s, n) := o.helpLine
      ⟨o.column, s, n, o.label.length⟩) 4
  c.about ++ "\n\nUsage: " ++ c.usage ++ "\n" ++ commands ++ arguments ++ options

def verboseOption : OptionSpec :=
  { key := "verbose", long := some "verbose", short := some 'v', role := .switch, rank := 1,
    summary := "Log at debug level (overrides RUST_LOG and the configured filter)" }

def helpOption : OptionSpec :=
  { key := "help", long := some "help", short := some 'h', role := .help, rank := 1000,
    summary := "Print help" }

def logOption : OptionSpec :=
  { key := "log", long := some "log", role := .value "LOG", rank := 0, isPath := true,
    summary := "Path to audit log (defaults to .pf/audit.jsonl)" }

def atOption : OptionSpec :=
  { key := "at", long := some "at", role := .value "AT", rank := 1,
    summary := "Evaluation time as RFC 3339 (defaults to now)" }

def helpAbout : String := "Print this message or the help of the given subcommand(s)"

def main : CommandSpec :=
  { path := "pf", about := "CLI for compiling, planning, and auditing compliance deny policies",
    options := [
      { key := "project-root", long := some "project-root", role := .value "PROJECT_ROOT", rank := 0,
        isPath := true,
        defaultValue := some ".", summary := "Project root directory (defaults to current directory)" },
      verboseOption, helpOption,
      { key := "version", long := some "version", short := some 'V', role := .version, rank := 1000,
        summary := "Print version" }],
    commands := [("compile", "Compile one or more scope configurations into manifests"),
      ("level", "Show the compliance level for a set of frameworks and a classification"),
      ("plan", "Show what applying a scope configuration would change"),
      ("audit", "Inspect or extend the audit trail"),
      ("help", helpAbout)] }

def compile : CommandSpec :=
  { path := "pf compile", about := "Compile one or more scope configurations into manifests",
    arguments := [
      { key := "configs", name := "CONFIGS", takesMany := true, isPath := true,
        summary := "Scope configuration files (.yaml, .yml, or .json)" }],
    options := [
      { key := "out", long := some "out", role := .value "OUT", rank := 0, isPath := true,
        summary := "Output directory (defaults to .pf/manifests)" },
      atOption,
      { key := "stdout", long := some "stdout", role := .switch, rank := 2,
        summary := "Print manifests to stdout instead of writing files" },
      verboseOption, helpOption] }

def level : CommandSpec :=
  { path := "pf level", about := "Show the compliance level for a set of frameworks and a classification",
    options := [
      { key := "framework", long := some "framework", role := .value "FRAMEWORKS", rank := 0,
        repeatable := true,
        summary := "Enabled framework (repeatable): iso27001, soc2, pci_dss, hipaa, gdpr" },
      { key := "classification", long := some "classification", role := .value "CLASSIFICATION",
        rank := 1, defaultValue := some "public",
        summary := "Data classification: public, internal, confidential, restricted" },
      verboseOption, helpOption] }

def plan : CommandSpec :=
  { path := "pf plan", about := "Show what applying a scope configuration would change",
    arguments := [{ key := "config", name := "CONFIG", isPath := true, summary := "Scope configuration file" }],
    options := [
      { key := "previous", long := some "previous", role := .value "PREVIOUS", rank := 0, isPath := true,
        summary := "Previously applied manifest (omit to plan from scratch)" },
      atOption, verboseOption, helpOption] }

def audit : CommandSpec :=
  { path := "pf audit", about := "Inspect or extend the audit trail",
    options := [verboseOption, helpOption],
    commands := [("verify", "Verify the audit log hash chain"), ("tail", "Show recent audit events"),
      ("violation", "Record a deny-policy violation reported by the enforcement point"),
      ("help", helpAbout)] }

def auditVerify : CommandSpec :=
  { path := "pf audit verify", about := "Verify the audit log hash chain",
    options := [logOption, verboseOption, helpOption] }

def auditTail : CommandSpec :=
  { path := "pf audit tail", about := "Show recent audit events",
    options := [logOption,
      { key := "n", short := some 'n', role := .value "N", rank := 1, counts := true,
        defaultValue := some "10", summary := "Number of events to show" },
      verboseOption, helpOption] }

def auditViolation : CommandSpec :=
  { path := "pf audit violation", about := "Record a deny-policy violation reported by the enforcement point",
    options := [
      { key := "scope", long := some "scope", role := .value "SCOPE", rank := 0, required := true,
        summary := "Scope id the denial happened in" },
      { key := "rule", long := some "rule", role := .value "RULE", rank := 1, required := true,
        summary := "Rule that denied the request" },
      { key := "principal", long := some "principal", role := .value "PRINCIPAL", rank := 2,
        required := true, summary := "Principal that was denied" },
      { key := "permission", long := some "permission", role := .value "PERMISSION", rank := 3,
        required := true, summary := "Permission that was denied" },
      { logOption with rank := 4 }, verboseOption, helpOption] }

def helpCommand (parent : String) : CommandSpec :=
  { path := parent ++ " help", about := helpAbout, options := [],
    arguments := [
      { key := "command", name := "COMMAND", takesMany := true, required := false,
        summary := "Print help for the subcommand(s)" }] }

def table : List CommandSpec :=
  [main, compile, level, plan, audit, auditVerify, auditTail, auditViolation]

def child? (c : CommandSpec) (name : String) : Option CommandSpec :=
  if c.commands.any (·.1 == name) then
    if name == "help" then some (helpCommand c.path)
    else table.find? (·.path == c.path ++ " " ++ name)
  else none

end CommandSpec

end DenyPolicy
