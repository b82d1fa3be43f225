import DecisionGate.Text.Blank
import DecisionGate.Text.Digit
import DecisionGate.Text.Quoted

/-!
The arguments of a tool. A long option may be cut short as long as it is the start of one option
only, and may carry its value after an equals sign; two dashes as that value give the option without
one. The three sources of input exclude each other. What is no option and no value of one is refused
at the end, all of it together.
-/
namespace DecisionGate.Tool

inductive Choice where
  | help
  | input
  | json
  | stdin
  | version
  deriving DecidableEq, Repr

/-- The value of an option that was given: a text, or nothing in the place of two dashes. -/
inductive Given where
  | text (s : String)
  | nothing
  deriving DecidableEq, Repr

namespace Given

def ofText (s : String) : Given := if s = "--" then .nothing else .text s

/-- A text that is not empty. -/
def named? : Given → Option String
  | .text s => if s.isEmpty then none else some s
  | .nothing => none

end Given

structure Arguments where
  input : Option Given := none
  json : Option Given := none
  stdin : Bool := false
  version : Bool := false
  deriving DecidableEq, Repr

/-- Why arguments are refused. -/
inductive UsageProblem where
  | ambiguous (given : String) (candidates : List String)
  | conflict (option other : Choice)
  | missingValue (option : Choice)
  | unwantedValue (option : Choice) (value : String)
  | unrecognized (words : List String)
  deriving DecidableEq, Repr

namespace Choice

/-- Every spelling, in the order in which they are tried. -/
def spellings : List (String × Choice) :=
  [("-h", .help), ("--help", .help), ("--input", .input), ("--json", .json), ("--stdin", .stdin),
   ("--version", .version)]

/-- The name in messages. -/
def name (o : Choice) : String :=
  "/".intercalate ((spellings.filter fun p => p.2 = o).map Prod.fst)

def takesValue : Choice → Bool
  | .input => true
  | .json => true
  | _ => false

/-- Options of which only one can be given. -/
def sources : List Choice := [.input, .json, .stdin]

end Choice

def UsageProblem.message : UsageProblem → String
  | .ambiguous given candidates =>
    s!"ambiguous option: {given} could match " ++ ", ".intercalate candidates
  | .conflict o other => s!"argument {o.name}: not allowed with argument {other.name}"
  | .missingValue o => s!"argument {o.name}: expected one argument"
  | .unwantedValue o value =>
    s!"argument {o.name}: ignored explicit argument {Text.quoted value}"
  | .unrecognized words => "unrecognized arguments: " ++ " ".intercalate words

/-- What one argument is: two dashes, an option with the value it carries, a word that looks like an
option, or anything else. The letters behind an option of one dash count as such a value. -/
inductive Word where
  | separator
  | option (o : Choice) (short : Bool) (carried : Option String)
  | unknown
  | plain
  deriving DecidableEq, Repr

/-- The parts before and after the first equals sign. -/
def cutEquals? (s : String) : Option (String × String) :=
  let cs := s.toList
  if cs.contains '=' then
    some (String.ofList (cs.takeWhile (· != '=')), String.ofList ((cs.dropWhile (· != '=')).drop 1))
  else none

/-- Whether digits, with at most one point that digits follow, are all there is; a line feed may
stand at the very end. -/
def isNumeral (cs : List Char) : Bool :=
  let body := if cs.getLast? = some '\n' then cs.dropLast else cs
  let whole := body.takeWhile Text.isDigit
  match body.drop whole.length with
  | [] => !whole.isEmpty
  | '.' :: rest => !rest.isEmpty && rest.all Text.isDigit
  | _ => false

/-- A spelling with the option it stands for and the value it carries. -/
structure Candidate where
  spelling : String
  option : Choice
  carried : Option String

/-- The options that an argument of two dashes can stand for. -/
def longCandidates (s : String) : List Candidate :=
  let (start, carried) : String × Option String := match cutEquals? s with
    | some (a, b) => (a, some b)
    | none => (s, none)
  (Choice.spellings.filter fun p => start.toList.isPrefixOf p.1.toList).map
    fun (spelling, o) => ⟨spelling, o, carried⟩

/-- The options that an argument of one dash can stand for: the rest of it is the value. -/
def shortCandidates (cs : List Char) : List Candidate :=
  Choice.spellings.filterMap fun (spelling, o) =>
    if spelling.toList = cs.take 2 then
      some ⟨spelling, o, some (String.ofList (cs.drop 2))⟩
    else if cs.isPrefixOf spelling.toList then some ⟨spelling, o, none⟩
    else none

/-- Whether a spelling has one dash. -/
def isShort (spelling : String) : Bool := spelling.length = 2

def Candidate.word (c : Candidate) : Word := .option c.option (isShort c.spelling) c.carried

/-- An argument that begins with a dash and is no spelling of an option. -/
def classifyUnspelled (s : String) : Except UsageProblem Word :=
  let cs := s.toList
  let candidates := if (cs.drop 1).head? == some '-' then longCandidates s else shortCandidates cs
  match candidates with
  | [c] => .ok c.word
  | _ :: _ :: _ => .error (.ambiguous s (candidates.map Candidate.spelling))
  | [] =>
    if isNumeral (cs.drop 1) || cs.contains ' ' then .ok .plain else .ok .unknown

def classify (s : String) : Except UsageProblem Word :=
  match s.toList with
  | '-' :: _ :: _ =>
    match Choice.spellings.lookup s with
    | some o => .ok (.option o (isShort s) none)
    | none =>
      match cutEquals? s with
      | some (start, value) =>
        match Choice.spellings.lookup start with
        | some o => .ok (.option o (isShort start) (some value))
        | none => classifyUnspelled s
      | none => classifyUnspelled s
  | _ => .ok .plain

/-- What each argument is. After two dashes nothing is an option. -/
def classifyAll : List String → Except UsageProblem (List (String × Word))
  | [] => .ok []
  | s :: rest =>
    if s = "--" then .ok ((s, .separator) :: rest.map fun r => (r, .plain))
    else do
      let w ← classify s
      let ws ← classifyAll rest
      .ok ((s, w) :: ws)

/-- Options taken so far, and words that belong to none. -/
structure Taken where
  arguments : Arguments := {}
  seen : List Choice := []
  others : List String := []

/-- Takes an option; a source is refused after another one. -/
def Taken.take (t : Taken) (o : Choice) (value : String) : Except UsageProblem Taken :=
  let rivals := if Choice.sources.contains o then Choice.sources.filter (· ≠ o) else []
  match rivals.find? t.seen.contains with
  | some other => .error (.conflict o other)
  | none =>
    let a := t.arguments
    let a := match o with
      | .help => a
      | .input => { a with input := some (.ofText value) }
      | .json => { a with json := some (.ofText value) }
      | .stdin => { a with stdin := true }
      | .version => { a with version := true }
    .ok { t with arguments := a, seen := o :: t.seen }

/-- The letters behind an option of one dash have to be options of one dash themselves, none of
which takes a value. -/
def afterLetters (o : Choice) : List Char → Except UsageProblem Unit
  | [] => .ok ()
  | c :: rest =>
    match Choice.spellings.lookup (String.ofList ['-', c]) with
    | some next => afterLetters next rest
    | none => .error (.unwantedValue o (String.ofList (c :: rest)))

/-- What an option carries that takes no value. -/
def refuseValue (o : Choice) (short : Bool) : Option String → Except UsageProblem Unit
  | none => .ok ()
  | some value =>
    if short && !value.isEmpty then afterLetters o value.toList
    else .error (.unwantedValue o value)

/-- What the arguments ask for: help, or a run. -/
inductive Request where
  | help
  | run (a : Arguments)
  deriving DecidableEq, Repr

def readWords (t : Taken) : List (String × Word) → Except UsageProblem Request
  | [] => if t.others.isEmpty then .ok (.run t.arguments) else .error (.unrecognized t.others)
  | (_, .option .help short carried) :: _ => do
    refuseValue .help short carried
    .ok .help
  | (_, .option o short carried) :: rest =>
    if o.takesValue then
      match carried, rest with
      | some value, rest => do readWords (← t.take o value) rest
      | none, (value, .plain) :: rest => do readWords (← t.take o value) rest
      | none, _ => .error (.missingValue o)
    else do
      refuseValue o short carried
      readWords (← t.take o "") rest
  | (word, _) :: rest => readWords { t with others := t.others ++ [word] } rest

/-- Reads the arguments of a run. -/
def parseArguments (words : List String) : Except UsageProblem Request := do
  readWords {} (← classifyAll words)

end DecisionGate.Tool
