import DecisionGate.Config.Resolution
import DecisionGate.Config.Store
import DecisionGate.Heuristic.Compiler
import DecisionGate.Heuristic.StrictInput
import DecisionGate.Json.Printer
import DecisionGate.Json.Reader
import DecisionGate.Tool.Arguments

/-!
One tool for each built-in heuristic. A tool reads one JSON context, checks it strictly, runs the
heuristic with the configuration in effect and prints the decision. It fails with 1 for input that
cannot be read, 2 for input that does not pass the check, and 3 without a configuration.
-/
namespace DecisionGate

/-- A tool is known by the heuristic that it runs. -/
abbrev Tool := Builtin

namespace Tool

def version : String := "0.1.0"

def program : Tool → String
  | .backCasting => "future-backcaster"
  | .coherenceScan => "coherence-scanner"
  | .automationCheck => "automation-checker"

def title : Tool → String
  | .backCasting => "Future Backcaster"
  | .coherenceScan => "Coherence Scanner"
  | .automationCheck => "Automation Checker"

def ofProgram? (name : String) : Option Tool := Builtin.all.find? fun t => program t = name

def examples : Tool → List String
  | .backCasting =>
    ["future-backcaster --json '\x7b\"endStateVision\": \x7b\"clarity\": 0.9\x7d, \"marketSignals\": \x7b\"alignment\": 0.3\x7d\x7d'",
     "future-backcaster --json '\x7b\"endStateClarity\": 0.9, \"marketAlignment\": 0.3\x7d'",
     "echo '\x7b\"endStateClarity\": 0.85\x7d' | future-backcaster --stdin"]
  | .coherenceScan =>
    ["coherence-scanner --json '\x7b\"truthfulness\": 0.9, \"systemAdherence\": 0.8, \"skill\": 0.7\x7d'",
     "coherence-scanner --input executor.json"]
  | .automationCheck =>
    ["automation-checker --json '\x7b\"frequency\": 5, \"standardizable\": 0.8, \"hasGuardrails\": true\x7d'",
     "automation-checker --json '\x7b\"executionsPerMonth\": 5, \"standardization\": 0.8, \"guardrails\": true\x7d'",
     "echo '\x7b\"frequency\": 3, \"standardizable\": 0.9, \"hasGuardrails\": true\x7d' | automation-checker --stdin"]

/-- Lines, each with its end. -/
def block (lines : List String) : String := String.join (lines.map (· ++ "\n"))

/-- The second line of the usage stands below the first option. -/
def usage (t : Tool) : List String :=
  let head := s!"usage: {program t} "
  [head ++ "[-h] [--input FILE | --json STRING | --stdin]",
   String.ofList (List.replicate head.length ' ') ++ "[--version]"]

def helpText (t : Tool) : String :=
  block (usage t ++
    ["", s!"{title t} - runs heuristic {t.id} ({Builtin.title t}).", "", "options:",
     "  -h, --help     show this help message and exit",
     "  --input FILE   read the JSON context from a file",
     "  --json STRING  parse an inline JSON string",
     "  --stdin        read the JSON context from stdin",
     "  --version      show version information", "", "examples:"] ++
    (examples t).map ("  " ++ ·))

def versionText (t : Tool) : String :=
  block [s!"{title t} v{version}", s!"Heuristic: {t.id} ({Builtin.title t})"]

/-- How a run ends. -/
structure Ending where
  code : Nat
  stdout : String := ""
  stderr : String := ""
  deriving DecidableEq, Repr

def succeeded (text : String) : Ending := { code := 0, stdout := text }

/-- A failure is printed as an object of its kind, its message and its details. -/
def failed (code : Nat) (kind message : String) (details : Entries := []) : Ending :=
  { code
    stderr := block [Json.prettyAscii (Value.ofNames
      [("error", .str kind), ("message", .str message), ("details", .map details)])] }

def invalidInput (message : String) : Ending := failed 1 "INVALID_INPUT" message

/-- The place of a problem, null for the whole input. -/
def placeValue (p : Schema.Problem) : Value :=
  if p.placeText.isEmpty then .null else .str p.placeText

def checkDetails (first : Schema.Problem) (problems : List Schema.Problem) : Entries :=
  Entries.ofNames
    [("field", placeValue first), ("error", .str first.message),
     ("errors", .list (problems.map fun p =>
       Value.ofNames [("field", placeValue p), ("message", .str p.message)]))]

def checkFailed : List Schema.Problem → Ending
  | [] => failed 2 "VALIDATION_ERROR" ""
  | p :: rest => failed 2 "VALIDATION_ERROR" p.message (checkDetails p (p :: rest))

/-- What surrounds a run. -/
structure Surroundings where
  tree : Files.Tree
  stdin : String := ""
  configPath : Files.Path
  environment : Config.Environment := []

/-- The text of the input file, or why there is none. -/
def fileText (s : Surroundings) (name : String) : Except String String :=
  match s.tree.octets (.ofText name) with
  | .error (.absent _) => .error s!"File not found: {name}"
  | .error p => .error (if p.isNoPath then p.message else s!"Could not read {name}: {p.message}")
  | .ok octets =>
    match Utf8.decode octets with
    | .error p => .error p.message
    | .ok text => .ok (String.ofList (Text.unixBreaks text.toList))

/-- The value of an input, or the message of its fault; one that nests too deeply is no plain
fault. -/
def parseInput (place text : String) : Except Failure (Except String Value) :=
  match Json.read text with
  | .ok v => .ok (.ok v)
  | .error p =>
    match p with
    | .malformed _ _ => .ok (.error s!"Invalid JSON {place}: {p.message text}")
    | .tooManyDigits _ => .ok (.error (p.message text))
    | .tooDeep => .error .tooDeep

/-- The input that arguments name, none when they name none. An empty file name names none; JSON
that is given as nothing is no text and cannot be read at all. -/
def readInput (s : Surroundings) (a : Arguments) :
    Option (Except Failure (Except String Value)) :=
  match a.input.bind Given.named?, a.json with
  | some name, _ =>
    match fileText s name with
    | .ok text => some (parseInput "in file" text)
    | .error message => some (.ok (.error message))
  | none, some (.text text) => some (parseInput "in --json argument" text)
  | none, some .nothing => some (.error .badType)
  | none, none => if a.stdin then some (parseInput "from stdin" s.stdin) else none

/-- The decision function of the tool, compiled from the configuration in effect. -/
def prepare (t : Tool) (s : Surroundings) :
    Except Failure (DecisionFunction × Config.Source) := do
  let store : Config.Store Empty := { path := s.configPath }
  let file := match ← (store.load s.tree).value.1 with
    | some d => Value.map d.entries
    | none => .null
  let (config, source) ← liftFault (Config.resolve file s.environment).value
  let (f, _) := (Compiler.compile {} t.id (.map (Config.sectionOf config t.id))).value
  .ok (← f, source)

/-- Whether the configuration could not be loaded; other failures are passed on. -/
def isLoadFailure : Failure → Bool
  | .file p => !p.isNoPath
  | f => f.isDomain

def subject (t : Tool) : List (String × Value) := [("heuristicId", .str t.id)]

def execute (t : Tool) (s : Surroundings) (input : Entries) : Except Failure Ending :=
  match prepare t s with
  | .error f =>
    if isLoadFailure f then
      .ok (failed 3 "MIND_LOADING_FAILURE" s!"Failed to load heuristic compiler: {f.message}"
        (Entries.ofNames (subject t)))
    else .error f
  | .ok (f, source) =>
    match f.call (.map input) with
    | .ok answer => .ok (succeeded (block [Json.pretty answer.toJson]))
    | .error f =>
      if f.isDomain then
        .ok (failed 1 "EXECUTION_ERROR" s!"Heuristic execution failed: {f.message}"
          (Entries.ofNames (subject t ++ [("configSource", .str source.text)])))
      else .error f

/-- Checks a context and runs the heuristic on it. -/
def judge (t : Tool) (s : Surroundings) (context : Value) : Except Failure Ending :=
  match context with
  | .map _ =>
    match StrictInput.ofContext t context with
    | .error problems => .ok (checkFailed problems)
    | .ok input => execute t s input
  | v =>
    .ok (failed 2 "VALIDATION_ERROR" "Input must be a JSON object"
      (Entries.ofNames [("received", .str v.kindName)]))

/-- Runs a tool with its arguments. -/
def run (t : Tool) (s : Surroundings) (words : List String) : Except Failure Ending :=
  match parseArguments words with
  | .error p => .ok (failed 1 "INVALID_ARGUMENTS" p.message)
  | .ok .help => .ok (succeeded (helpText t))
  | .ok (.run a) =>
    if a.version then .ok (succeeded (versionText t))
    else
      match readInput s a with
      | none =>
        .ok (invalidInput "No input method specified. Use --input, --json, or --stdin")
      | some (.error f) => .error f
      | some (.ok (.error message)) => .ok (invalidInput message)
      | some (.ok (.ok context)) => judge t s context

end Tool

end DecisionGate
