import DenyPolicy.Command.Settings
import DenyPolicy.Command.Line
import DenyPolicy.Command.Report
import DenyPolicy.Load
import DenyPolicy.Compilation
import DenyPolicy.Audit.Chain
import DenyPolicy.Time.Rfc3339
import DenyPolicy.Manifest.Read
/-!
# Running the commands

Each command loads the project's settings first, so a bad settings file stops
every command.

* `compile` reads every file before compiling any, so one unreadable file stops
  the run; files that name no break-glass group take the remote state from the
  state file, read only when needed, a missing or malformed file making the
  state unavailable.  Each scope that fails is reported and the others go on:
  their manifests are written (or printed, one alone or all as an array), and
  each is recorded in the audit log in apply order, an active emergency
  override first.  The run fails when any scope failed.
* `level` prints the level a set of frameworks and a classification demand.
* `plan` compiles one file and prints what applying it would change against a
  manifest written before, or against nothing.
* `audit verify` checks the log's hash chain, `audit tail` prints its last
  events, and `audit violation` records a denied request.

A command line that cannot be read ends with status 2, a failed command with 1.
-/

namespace DenyPolicy

variable {m : Type → Type} [Monad m] [Host m]

def PolicyError.failure (e : PolicyError) : Failure := { message := e.message }

def engineStep (r : Except PolicyError α) : ExceptT Failure m α :=
  match r with
  | .ok a => pure a
  | .error e => throw e.failure

/-- The evaluation time: `--at` read as a strict timestamp, or the clock. -/
def evaluationTime : Option String → ExceptT Failure m Instant
  | some raw =>
    match Instant.readStrict raw with
    | .ok t => pure t
    | .error f => throw { message := "--at '" ++ raw ++ "' is not an RFC 3339 timestamp", causes := [f.message] }
  | none => liftM (Host.now : m Instant)

def breakGlassStateSchema : Schema :=
  .record "BreakGlassState" [("break_glass_group", .required, .text), ("super_admins", .defaulted, .list .text)]

/-- Reads a break-glass state document, or says why it is none. -/
def readBreakGlassState (text : String) : Except String RemoteBreakGlass := do
  let v ← breakGlassStateSchema.readTextOrMessage text
  let decoded : Except DecodeError RemoteBreakGlass := do
    let fs ← Decode.fields ["break_glass_group", "super_admins"] v
    let group ← fs.required "break_glass_group" Decode.string
    let admins ← fs.withDefault "super_admins" [] (Decode.list Decode.string)
    pure (.available group admins)
  decoded.mapError fun _ => "not a break-glass state"

/-- The remote break-glass state kept in the file at `path`. -/
def breakGlassState (path : String) : m RemoteBreakGlass := do
  match ← (Host.readFile path : m (Except ReadFault String)) with
  | .error e => pure (.unavailable ("cannot read " ++ path ++ ": " ++ e.reason))
  | .ok text =>
    match readBreakGlassState text with
    | .ok r => pure r
    | .error msg => pure (.unavailable ("malformed " ++ path ++ ": " ++ msg))

/-- Reads an input file, with the evaluation time `t` unless the file pins one
and the remote break-glass state when the file needs it. -/
def loadInputFile (s : Settings) (t : Instant) (path : String) : ExceptT Failure m CompilationInput := do
  let text ← match ← (Host.readFile path : m (Except ReadFault String)) with
    | .ok text => pure text
    | .error e => throw (PolicyError.load path e.reason).failure
  let input ← engineStep (loadInput path text)
  let input := input.withDefaultTime t
  if input.needsRemoteBreakGlass then
    pure (input.withResolvedFallback (← liftM (breakGlassState s.breakGlassState : m RemoteBreakGlass)))
  else pure input

def AuditError.failure (e : AuditError) : Failure :=
  match e with
  | .serialization reason => { message := e.message, causes := [reason] }
  | .integrityViolation .. => { message := e.message }

def openFailure (path reason : String) : Failure :=
  { message := "failed to open audit log at " ++ path ++ ": " ++ reason, causes := [reason] }

def logIoFailure (reason : String) : Failure :=
  { message := "audit log I/O failed: " ++ reason, causes := [reason] }

def readLog (path : String) : ExceptT Failure m String := do
  match ← (Host.readFile path : m (Except ReadFault String)) with
  | .ok t => pure t
  | .error (.unopened e) => throw (openFailure path e)
  | .error (.unread e) => throw (logIoFailure e)

/-- Opens the log at `path` for appending: makes its directory, reads the
events already there, and makes the log when it is missing. -/
def openLog (path : String) : ExceptT Failure m AuditLog.Writer := do
  if let some dir := parentPath? path then
    if let .error e := ← (Host.makeDirectories dir : m (Except String Unit)) then
      throw (openFailure path e)
  let text ← if ← (Host.isPresent path : m Bool) then readLog path else pure ""
  match ← (Host.appendFile path "" : m (Except String Unit)) with
  | .ok () => pure (AuditLog.open_ text)
  | .error e => throw (openFailure path e)

/-- Records an event in the log at `path`, with a fresh id and the current time. -/
def recordEvent (path : String) (w : AuditLog.Writer) (e : AuditEvent) :
    ExceptT Failure m (AuditEvent × AuditLog.Writer) := do
  let id ← liftM (Host.freshId : m Uuid)
  let now ← liftM (Host.now : m Instant)
  let (stored, w) := w.append { e with eventId := id, timestamp := now }
  match ← (Host.appendFile path (stored.line ++ "\n") : m (Except String Unit)) with
  | .ok () => pure (stored, w)
  | .error err => throw (logIoFailure err)

/-- The events that record a compiled set: its emergency override when active,
then the compilation with the manifest's path when one was written. -/
def compiledEvents (set : PolicySet) (manifest : Option String) : List AuditEvent :=
  let count (n : Nat) : Json := .num (.nat n)
  let overrideEvent : List AuditEvent :=
    if set.emergencyOverride.active then
      [{ scope := set.scope.id, action := .emergencyOverrideActivated,
         detail := some (set.emergencyOverride.reason.getD ""),
         metadata := .obj [("compliance_level", .str set.level.name),
           ("requested_frameworks", set.requestedFrameworks.toJson),
           ("suppressed_rule_count", count set.summary.suppressedRuleCount)] }]
    else []
  overrideEvent ++
    [{ scope := set.scope.id, action := .policyCompiled,
       metadata := .obj [("compliance_level", .str set.level.name), ("digest", .str set.digest),
         ("manifest", match manifest with
           | some p => .str p
           | none => .null),
         ("rule_count", count set.summary.ruleCount)] }]

def manifestFileName (set : PolicySet) : String :=
  set.scope.tier.name ++ "-" ++ Text.replaceChar set.scope.id '/' "-" ++ ".json"

/-- Writes a set's manifest into `dir`, made first when it is missing; the
answer is the manifest's path. -/
def writeManifest (dir : String) (set : PolicySet) : ExceptT Failure m String := do
  if let .error e := ← (Host.makeDirectories dir : m (Except String Unit)) then
    throw { message := "failed to create " ++ dir, causes := [e] }
  let path := joinPath dir (manifestFileName set)
  match ← (Host.writeFile path (set.toPretty ++ "\n") : m (Except String Unit)) with
  | .ok () => pure path
  | .error e => throw { message := "failed to write " ++ path, causes := [e] }

def printedSets : List PolicySet → String
  | [single] => single.toPretty
  | sets => (Json.arr (sets.map PolicySet.toJson)).pretty

def deliverSet (s : Settings) (outDir : String) (toStdout : Bool) (w : AuditLog.Writer) (set : PolicySet) :
    ExceptT Failure m AuditLog.Writer := do
  let destination ← if toStdout then pure none else some <$> writeManifest outDir set
  let w ← (compiledEvents set destination).foldlM (fun w e => do pure (← recordEvent s.auditLog w e).2) w
  if let some p := destination then liftM (Host.out (Report.compiled set p) : m Unit)
  pure w

/-- Compiles configuration files into manifests. -/
def runCompile (s : Settings) (configs : List String) (out at_ : Option String) (toStdout : Bool) :
    ExceptT Failure m Unit := do
  let t ← evaluationTime at_
  let inputs ← configs.mapM (loadInputFile s t)
  let results := configs.zip (inputs.map CompilationInput.compile)
  for (path, r) in results do
    if let .error e := r then liftM (Host.err ("error: " ++ path ++ ": " ++ e.message ++ "\n") : m Unit)
  let compiled := results.filterMap fun (_, r) => match r with
    | .ok o => some o.policySet
    | .error _ => none
  let failures := results.length - compiled.length
  let w ← (openLog s.auditLog).adapt (Failure.within ("failed to open audit log " ++ s.auditLog))
  let ordered := applyOrder compiled
  if toStdout then liftM (Host.out (printedSets ordered ++ "\n") : m Unit)
  let _ ← ordered.foldlM (deliverSet s (out.getD s.outputDir) toStdout) w
  if failures > 0 then
    throw { message := toString failures ++ " of " ++ toString configs.length ++ " scope(s) failed to compile" }

def runLevel (frameworks : List String) (classification : String) : ExceptT Failure m Unit := do
  let fs ← engineStep (frameworks.mapM Framework.parse)
  let c ← engineStep (Classification.parseFor "-" classification)
  liftM (Host.out (Report.level (FrameworkSet.ofList fs) c) : m Unit)

/-- Reads a manifest written before. -/
def loadManifest (path : String) : ExceptT Failure m PolicySet := do
  let text ← match ← (Host.readFile path : m (Except ReadFault String)) with
    | .ok t => pure t
    | .error e => throw { message := "failed to read manifest " ++ path, causes := [e.reason] }
  let notManifest (why : String) : Failure := { message := path ++ " is not a policy manifest", causes := [why] }
  match PolicySet.fromJsonStr text with
  | .error why => throw (notManifest why)
  | .ok set => pure set

/-- Prints what applying a configuration would change. -/
def runPlan (s : Settings) (config : String) (previous at_ : Option String) : ExceptT Failure m Unit := do
  let t ← evaluationTime at_
  let input ← loadInputFile s t config
  let next := (← engineStep input.compile).policySet
  let before ← match previous with
    | some p => some <$> loadManifest p
    | none => pure none
  let p ← engineStep (plan before next)
  liftM (Host.out (Report.plan p next) : m Unit)

/-- Runs an audit command. -/
def runAudit (s : Settings) : AuditCommand → ExceptT Failure m Unit
  | .verify log => do
    let path := log.getD s.auditLog
    if !(← (Host.isPresent path : m Bool)) then
      liftM (Host.out ("No audit log found at " ++ path ++ "\n") : m Unit)
    else
      match AuditLog.verify (← readLog path) with
      | .ok n => liftM (Host.out ("Audit log verified: " ++ toString n ++ " event(s), hash chain intact.\n") : m Unit)
      | .error (.integrityViolation l e a) => do
        liftM (Host.out (Report.violation l e a) : m Unit)
        throw { message := "Audit log integrity check failed" }
      | .error e => throw e.failure
  | .tail log n => do
    let path := log.getD s.auditLog
    if !(← (Host.isPresent path : m Bool)) then
      liftM (Host.out ("No audit log found at " ++ path ++ "\n") : m Unit)
    else
      match AuditLog.tail (← readLog path) n with
      | .ok es => liftM (Host.out (Report.events es) : m Unit)
      | .error e => throw e.failure
  | .violation scope rule principal permission log => do
    let path := log.getD s.auditLog
    let w ← openLog path
    let (stored, _) ← recordEvent path w (AuditEvent.violation scope rule principal permission)
    liftM (Host.out ("Recorded violation " ++ stored.eventId.render ++ " in " ++ path ++ "\n") : m Unit)

/-- Runs a command in the project at `root`. -/
def Command.execute (root : String) (c : Command) : ExceptT Failure m Unit := do
  let s ← Settings.load root
  match c with
  | .compile configs out at_ toStdout => runCompile s configs out at_ toStdout
  | .level fs cl => runLevel fs cl
  | .plan config previous at_ => runPlan s config previous at_
  | .audit a => runAudit s a

def versionText : String := "pf 0.3.1\n"

/-- Runs a command line, the program's name left out; the answer is the exit status. -/
def runCommandLine (words : List String) : m Nat := do
  match readCommandLine words with
  | .refuse r => do
    Host.err r.render
    pure 2
  | .helpInstead text => do
    Host.err text
    pure 2
  | .help text => do
    Host.out text
    pure 0
  | .version => do
    Host.out versionText
    pure 0
  | .run i => do
    let root ← Host.canonical i.projectRoot
    match ← (Command.execute root i.command).run with
    | .ok () => pure 0
    | .error f => do
      Host.err f.render
      pure 1

end DenyPolicy
