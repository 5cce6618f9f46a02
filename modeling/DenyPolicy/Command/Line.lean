import DenyPolicy.Command.Spec
import DenyPolicy.Text.Similarity
/-!
# The command line

A command line names a command (`compile`, `level`, `plan`, or one of the
`audit` commands) with its files and options, read word by word from the left
against the table of `Command.Spec`.

* `--name value`, `--name=value`, `-n value`, `-nvalue` and `-n=value` give an
  option its value; letters of switches may share one word (`-vh`).  An option
  waiting for its value takes the next word unless that word is itself an option
  or `--`; the value is taken in when the next option, plain argument or the end
  comes, and only then checked.  Plain words wait alike until an option, a word
  for another argument or the end comes.  A value or word that names a file may
  not be empty.
* `--` makes every word after it a plain argument.
* `-h`/`--help` and `-V`/`--version` answer at once, before the words after them
  are read.
* The first word that names a command under the current one starts that
  command; its words are read before the current command's last option is taken
  in.

A refused command line is a `Refusal`: the error, hints such as a similar name
(by `Text.similarNames`), and the usage line, which lists the options that were
given when there are any.
-/

namespace DenyPolicy

/-- The audit commands. -/
inductive AuditCommand where
  | verify (log : Option String)
  | tail (log : Option String) (count : Nat)
  | violation (scope rule principal permission : String) (log : Option String)
  deriving Repr, DecidableEq

/-- The commands. -/
inductive Command where
  | compile (configs : List String) (out : Option String) (at_ : Option String) (toStdout : Bool)
  | level (frameworks : List String) (classification : String)
  | plan (config : String) (previous : Option String) (at_ : Option String)
  | audit (command : AuditCommand)
  deriving Repr, DecidableEq

/-- A command with the options that hold for every command. -/
structure Invocation where
  projectRoot : String := "."
  verbose : Bool := false
  command : Command
  deriving Repr, DecidableEq

/-- Why a command line is refused. -/
inductive ArgError where
  /-- A word that the command does not take. -/
  | unexpected (word : String)
  /-- A word where a command is expected that names none. -/
  | unknownCommand (word : String)
  /-- An option without its value. -/
  | emptyValue (option : String)
  /-- A value that the option does not take, with the reason. -/
  | invalidValue (value option reason : String)
  /-- A value attached to a switch. -/
  | extraValue (value option : String)
  /-- An option given twice that may be given once. -/
  | repeated (option : String)
  /-- Options and arguments that must be given and were not. -/
  | missing (names : List String)
  /-- A command that needs one of the commands under it. -/
  | noCommand (path : String) (names : List String)
  deriving Repr, DecidableEq

/-- The first line of an error's text. -/
def ArgError.headline : ArgError → String
  | .unexpected w => "unexpected argument '" ++ w ++ "' found"
  | .unknownCommand w => "unrecognized subcommand '" ++ w ++ "'"
  | .emptyValue o => "a value is required for '" ++ o ++ "' but none was supplied"
  | .invalidValue v o r => "invalid value '" ++ v ++ "' for '" ++ o ++ "': " ++ r
  | .extraValue v o => "unexpected value '" ++ v ++ "' for '" ++ o ++ "' found; no more were expected"
  | .repeated o => "the argument '" ++ o ++ "' cannot be used multiple times"
  | .missing ns => "the following required arguments were not provided:" ++
      String.join (ns.map fun n => "\n  " ++ n)
  | .noCommand p ns => "'" ++ p ++ "' requires a subcommand but one was not provided\n  [subcommands: " ++
      ", ".intercalate ns ++ "]"

/-- A refused command line: the error, hints, and the usage line if one is shown. -/
structure Refusal where
  error : ArgError
  tips : List String := []
  usage : Option String := none
  deriving Repr, DecidableEq

/-- The text of a refusal: the error, each hint on a line of its own after a
blank line, the usage line after another, and where to find more. -/
def Refusal.render (r : Refusal) : String :=
  let tips := if r.tips.isEmpty then "" else "\n" ++ String.join (r.tips.map ("\n  tip: " ++ ·))
  let usage := match r.usage with
    | some u => "\n\nUsage: " ++ u
    | none => ""
  "error: " ++ r.error.headline ++ tips ++ usage ++ "\n\nFor more information, try '--help'.\n"

/-- What a command line asks for. -/
inductive Request where
  | run (i : Invocation)
  /-- A help text asked for. -/
  | help (text : String)
  | version
  /-- The help text of a command given without any of the words it needs: shown
  as a failure. -/
  | helpInstead (text : String)
  | refuse (r : Refusal)
  deriving Repr, DecidableEq

/-- The options and plain arguments a command was given. -/
structure Reading where
  /-- Each option or plain argument by key with its value, in the order taken in. -/
  given : List (String × String) := []
  /-- The keys given, in the order first given. -/
  order : List String := []
  deriving Repr, DecidableEq

namespace Reading

def has (r : Reading) (key : String) : Bool := r.order.contains key

def values (r : Reading) (key : String) : List String :=
  (r.given.filter (·.1 == key)).map (·.2)

def value? (r : Reading) (key : String) : Option String := (r.values key).head?

def add (r : Reading) (key value : String) : Reading :=
  { given := r.given ++ [(key, value)], order := if r.has key then r.order else r.order ++ [key] }

def erase (r : Reading) (key : String) : Reading :=
  { given := r.given.filter (·.1 != key), order := r.order.filter (· != key) }

end Reading

/-- Reads a count as unsigned 64-bit integers are read: an optional `+`, then
decimal digits.  Scanning from the left, the first character that is no digit
or the first digit that takes the number to `2^64` decides the error. -/
def readCount (s : String) : Except String Nat :=
  let rec go : List Char → Nat → Except String Nat
    | [], n => .ok n
    | d :: ds, n =>
      if d.isDigit then
        let n' := n * 10 + (d.toNat - '0'.toNat)
        if n' < Nat.pow 2 64 then go ds n' else .error "number too large to fit in target type"
      else .error "invalid digit found in string"
  match s.toList with
  | [] => .error "cannot parse integer from empty string"
  | ['+'] => .error "invalid digit found in string"
  | '+' :: ds => go ds 0
  | ds => go ds 0

/-- Where reading one command's words stands. -/
structure Progress where
  read : Reading := {}
  /-- An option waiting for its value, or holding one not yet taken in. -/
  pending : Option (OptionSpec × Option String) := none
  /-- Plain words taken in but not yet checked, with their arguments. -/
  waiting : List (ArgumentSpec × String) := []
  /-- Whether `--` was passed, after which every word is a plain argument. -/
  trailing : Bool := false

namespace CommandSpec

/-- The plain argument that the `n`-th plain word fills: each argument takes one
word, one that takes many takes all that are left. -/
def argumentFor : List ArgumentSpec → Nat → Option ArgumentSpec
  | [], _ => none
  | a :: as, n => if a.takesMany || n == 0 then some a else argumentFor as (n - 1)

/-- The usage line that shows what was given: the words, the options that must
be given and those in `used`, the plain arguments that must be given or are in
`used`, and `<COMMAND>` for a command with commands under it. -/
def usageWith (c : CommandSpec) (used : List String) : String :=
  let keys := (c.options.filter (·.required)).map (·.key) ++ used
  let options := c.options.filter (keys.contains ·.key)
  let ordered := (keys.eraseDups).filterMap fun k => options.find? (·.key == k)
  let arguments := c.arguments.filter fun a => a.required || used.contains a.key
  let parts := ordered.map (·.label) ++ arguments.map (·.label true) ++
    (if c.commands.isEmpty then [] else ["<COMMAND>"])
  String.join ((c.path :: parts).intersperse " ")

/-- The usage line of an error: the help text's when nothing was given, else the
one that shows what was given. -/
def usageFor (c : CommandSpec) (used : List String) : String :=
  if used.isEmpty then c.usage else c.usageWith used

def longNames (c : CommandSpec) : List String := c.options.filterMap (·.long)

/-- Takes in an option with its value, if it has one: help and version answer at
once; a value option without a value, an option given twice that may not be, and
a count that does not read are refused. -/
def takeIn (c : CommandSpec) (o : OptionSpec) (v : Option String) (r : Reading) :
    Except Request Reading :=
  let repeated := r.has o.key && !o.repeatable
  let twice : Request := .refuse { error := .repeated o.label, usage := some c.usage }
  match o.role, v with
  | .help, _ => .error (.help c.helpText)
  | .version, _ => .error .version
  | .switch, _ => if repeated then .error twice else .ok (r.add o.key "")
  | .value _, none => .error (.refuse { error := .emptyValue o.label })
  | .value _, some v =>
    if repeated then .error twice
    else if o.isPath && v.isEmpty then .error (.refuse { error := .emptyValue o.label })
    else if o.counts then
      match readCount v with
      | .ok _ => .ok (r.add o.key v)
      | .error why => .error (.refuse { error := .invalidValue v o.label why })
    else .ok (r.add o.key v)

def checkWaiting : List (ArgumentSpec × String) → Except Request Unit
  | [] => .ok ()
  | (a, w) :: rest =>
    if a.isPath && w.isEmpty then .error (.refuse { error := .emptyValue (a.label true) })
    else checkWaiting rest

/-- Checks the plain words waiting and takes in the option waiting for its
value, if any. -/
def settle (c : CommandSpec) (p : Progress) : Except Request Progress := do
  checkWaiting p.waiting
  let p := { p with waiting := [] }
  match p.pending with
  | none => .ok p
  | some (o, v) => do
    let r ← c.takeIn o v p.read
    pure { p with read := r, pending := none }

/-- What is left of the reading when a refusal cuts it short: the waiting option
is kept if it had its value, and an option given twice is forgotten. -/
def settleQuietly (p : Progress) : Reading :=
  match p.pending with
  | some (o, v) =>
    if o.role matches .help || o.role matches .version then p.read
    else if o.takesValue && v.isNone then p.read
    else if p.read.has o.key && !o.repeatable then p.read.erase o.key
    else p.read.add o.key (v.getD "")
  | none => p.read

def asValueTip (c : CommandSpec) (p : Progress) (word : String) : List String :=
  if !p.trailing && !c.arguments.isEmpty then
    ["to pass '" ++ word ++ "' as a value, use '-- " ++ word ++ "'"]
  else []

/-- The refusal of an unknown `--name`: a similar long name of this command is
suggested, else one of a command named later on the line; with no suggestion, a
command with plain arguments hints at `--`. -/
def unknownLong (c : CommandSpec) (p : Progress) (name : String) (rest : List String) : Request :=
  let read := settleQuietly p
  let word := "--" ++ name
  match (Text.similarNames name c.longNames).getLast? with
  | some s =>
    let used := match c.options.find? (·.long == some s) with
      | some o => if read.has o.key then read.order else read.order ++ [o.key]
      | none => read.order
    .refuse
      { error := .unexpected word, tips := ["a similar argument exists: '--" ++ s ++ "'"],
        usage := some (c.usageFor used) }
  | none =>
    let later := c.commands.filterMap fun (n, _) => do
      let d ← c.child? n
      let s ← (Text.similarNames name d.longNames).getLast?
      let at_ ← rest.idxOf? n
      pure (at_, n, s)
    let first := later.foldl (fun best x => match best with
      | some b => if x.1 < b.1 then some x else some b
      | none => some x) none
    let tips := match first with
      | some (_, n, s) => ["'" ++ n ++ " --" ++ s ++ "' exists"]
      | none => c.asValueTip p word
    .refuse { error := .unexpected word, tips, usage := some (c.usageFor read.order) }

/-- Reads `--name` or `--name=value`. -/
def readLong (c : CommandSpec) (p : Progress) (body : String) (rest : List String) :
    Except Request Progress :=
  let (name, attached) := match body.splitOn "=" with
    | n :: v :: vs => (n, some ("=".intercalate (v :: vs)))
    | _ => (body, none)
  match c.options.find? (·.long == some name) with
  | none => .error (c.unknownLong p name rest)
  | some o =>
    match o.takesValue, attached with
    | true, some v => do
      let p ← c.settle p
      pure { p with read := ← c.takeIn o (some v) p.read }
    | true, none => do
      let p ← c.settle p
      pure { p with pending := some (o, none) }
    | false, some v =>
      let required := c.options.filter (·.required) |>.map (·.key)
      let used := p.read.order.filter (!required.contains ·) ++ [o.key]
      .error (.refuse { error := .extraValue v o.label, usage := some (c.usageWith used) })
    | false, none => do
      let p ← c.settle p
      pure { p with read := ← c.takeIn o none p.read }

/-- Reads the letters of a word such as `-vn5`: switches, then at most one option
that takes the rest of the word, less a leading `=`, or else the next word. -/
def readShort (c : CommandSpec) : Progress → List Char → Except Request Progress
  | p, [] => .ok p
  | p, ch :: more =>
    match c.options.find? (·.short == some ch) with
    | none =>
      let word := "-" ++ ch.toString
      .error (.refuse { error := .unexpected word, tips := c.asValueTip p word, usage := some c.usage })
    | some o =>
      if o.takesValue then
        if more.isEmpty then do
          let p ← c.settle p
          pure { p with pending := some (o, none) }
        else do
          let v := String.ofList (match more with
            | '=' :: r => r
            | r => r)
          let p ← c.settle p
          pure { p with read := ← c.takeIn o (some v) p.read }
      else do
        let p ← c.settle p
        readShort c { p with read := ← c.takeIn o none p.read } more

/-- The refusal of a plain word where a command is expected. -/
def unknownWord (c : CommandSpec) (p : Progress) (w : String) : Request :=
  if p.trailing && (c.child? w).isSome then
    .refuse
      { error := .unexpected w,
        tips := ["subcommand '" ++ w ++ "' exists; to use it, remove the '--' before it"],
        usage := some c.usage }
  else
    let similar := Text.similarNames w (c.commands.map (·.1))
    let quoted := ", ".intercalate (similar.map fun s => "'" ++ s ++ "'")
    let tips := match similar with
      | [] => []
      | [_] => ["a similar subcommand exists: " ++ quoted]
      | _ => ["some similar subcommands exist: " ++ quoted]
    .refuse { error := .unknownCommand w, tips, usage := some c.usage }

def isLetters (w : String) : Bool := w.startsWith "-" && !w.startsWith "--" && w.length > 1

/-- Reads a command's words up to the end or the first word that names a command
under it, which is returned with the words after it. -/
def readWords (c : CommandSpec) : Progress → List String →
    Except Request (Progress × Option (String × List String))
  | p, [] => .ok (p, none)
  | p, w :: rest =>
    if !p.trailing && (c.child? w).isSome then .ok (p, some (w, rest))
    else if !p.trailing && w == "--" then do
      let p ← c.settle p
      readWords c { p with trailing := true } rest
    else if !p.trailing && w.startsWith "--" then do
      readWords c (← c.readLong p (w.drop 2).toString rest) rest
    else if !p.trailing && isLetters w then do
      readWords c (← c.readShort p (w.toList.drop 1)) rest
    else match p.pending with
      | some (o, none) => readWords c { p with pending := some (o, some w) } rest
      | _ =>
        if !c.commands.isEmpty then .error (c.unknownWord p w)
        else
          let taken := (c.arguments.map fun a => (p.read.values a.key).length).sum
          match argumentFor c.arguments taken with
          | some a => do
            let p ← if p.waiting.all (·.1.key == a.key) && p.pending.isNone then pure p else c.settle p
            readWords c { p with read := p.read.add a.key w, waiting := p.waiting ++ [(a, w)] } rest
          | none => .error (.refuse { error := .unexpected w, usage := some c.usage })

/-- The checks once a command's words are read and no command under it was
named: a command that needs one shows its help when given nothing, else asks for
one; then every required option and argument must have been given. -/
def finish (c : CommandSpec) (r : Reading) : Except Request Reading :=
  if !c.commands.isEmpty then
    if r.order.isEmpty then .error (.helpInstead c.helpText)
    else .error (.refuse { error := .noCommand c.path (c.commands.map (·.1)), usage := some c.usage })
  else
    let options := c.options.filter fun o => o.required && !r.has o.key
    let arguments := c.arguments.filter fun a => a.required && !r.has a.key
    if options.isEmpty && arguments.isEmpty then .ok r
    else
      let missing := options.map (·.key) ++ arguments.map (·.key)
      .error (.refuse
        { error := .missing (options.map (·.label) ++ arguments.map (·.label true)),
          usage := some (c.usageWith (r.order ++ missing)) })

def helpFor (c : CommandSpec) : List String → Request
  | [] => .help c.helpText
  | w :: ws =>
    match c.child? w with
    | some d => helpFor d ws
    | none => .refuse { error := .unknownCommand w, usage := some c.usage }

/-- Reads a command's words and those of the commands named under it: the
commands read, each with what it was given.  `fuel` bounds the depth; each level
takes at least one word. -/
def readLevels : Nat → CommandSpec → List String → Except Request (List (String × Reading))
  | 0, c, _ => .ok [(c.path, {})]
  | fuel + 1, c, words => do
    let (p, next) ← c.readWords {} words
    match next with
    | none =>
      let p ← c.settle p
      let r ← c.finish p.read
      pure [(c.path, r)]
    | some (name, rest) =>
      if name == "help" then .error (c.helpFor rest)
      else match c.child? name with
        | some d =>
          let below ← readLevels fuel d rest
          let p ← c.settle p
          pure ((c.path, p.read) :: below)
        | none => .error (c.unknownWord p name)

end CommandSpec

/-- The command that the commands read name, with what each was given. -/
def commandOf (levels : List (String × Reading)) : Option (Bool × Command) :=
  let verbose := levels.any (·.2.has "verbose")
  let r := (levels.getLast?.map (·.2)).getD {}
  let command : Option Command := match (levels.map (·.1)).getLast? with
    | some "pf compile" => some (.compile (r.values "configs") (r.value? "out") (r.value? "at") (r.has "stdout"))
    | some "pf level" => some (.level (r.values "framework") ((r.value? "classification").getD "public"))
    | some "pf plan" => some (.plan ((r.value? "config").getD "") (r.value? "previous") (r.value? "at"))
    | some "pf audit verify" => some (.audit (.verify (r.value? "log")))
    | some "pf audit tail" =>
      let n := match (r.value? "n").map readCount with
        | some (.ok n) => n
        | _ => 10
      some (.audit (.tail (r.value? "log") n))
    | some "pf audit violation" =>
      some (.audit (.violation ((r.value? "scope").getD "") ((r.value? "rule").getD "")
        ((r.value? "principal").getD "") ((r.value? "permission").getD "") (r.value? "log")))
    | _ => none
  command.map (verbose, ·)

/-- Reads a command line, the program's name left out. -/
def readCommandLine (words : List String) : Request :=
  match CommandSpec.main.readLevels (words.length + 1) words with
  | .error r => r
  | .ok levels =>
    let root := ((levels.head?.map (·.2)).bind (·.value? "project-root")).getD "."
    match commandOf levels with
    | some (verbose, command) => .run { projectRoot := root, verbose, command }
    | none => .help CommandSpec.main.helpText

end DenyPolicy
