import DecisionGate.Heuristic.StrictInput
import DecisionGate.Json.Reader
import DecisionGate.Schema.Field
import DecisionGate.Text.Wide
import DecisionGate.Web.Response
import DecisionGate.Web.Target

/-!
What requests bring along: a body in JSON, whose fields are checked all at once, or a limit in the
query.
-/
namespace DecisionGate.Web
open Schema

structure Request where
  method : String
  target : String
  body : String := ""

def byteOrderMark : Char := Char.ofNat 0xFEFF

/-- How the characters of a body are written. -/
inductive Encoding where
  | octets
  | short (e : Text.Endian)
  | long (e : Text.Endian)
  deriving DecidableEq, Repr

/-- JSON begins with two common characters, so the zeros among the first four octets, or the only
two, show how wide the units are. -/
def Encoding.ofOctets : List Nat → Encoding
  | 0 :: 0 :: _ :: _ :: _ => .long .big
  | 0 :: _ :: _ :: _ :: _ => .short .big
  | _ :: 0 :: 0 :: 0 :: _ => .long .little
  | _ :: 0 :: _ :: _ :: _ => .short .little
  | [0, _] => .short .big
  | [_, 0] => .short .little
  | _ => .octets

/-- The text of a body without the mark that may stand in front of it; none when the units do not
come out even. -/
def bodyText? (s : String) : Option String :=
  match Encoding.ofOctets (Utf8.encode s) with
  | .octets =>
    match s.toList with
    | c :: rest => some (if c = byteOrderMark then String.ofList rest else s)
    | [] => some s
  | .short e => (Text.decodeShort? e (Utf8.encode s)).map String.ofList
  | .long e => (Text.decodeLong? e (Utf8.encode s)).map String.ofList

def unreadable : Response := .detail 400 (.str "There was an error parsing the body")

/-- The value of a body; an empty one has none. -/
def readBody (s : String) : Except Response Value :=
  if s.isEmpty then .ok .null
  else
    match bodyText? s with
    | none => .error unreadable
    | some text =>
      match Json.read text with
      | .ok v => .ok v
      | .error (.malformed reason position) =>
        .error (.invalid doubleBound
          [⟨.json reason.text, [.name "body", .index position], .map []⟩])
      | .error _ => .error unreadable

/-- The fields of a body, which has to be a mapping. -/
def checkBody {α : Type} (check : Entries → Checked α) (v : Value) : Checked α :=
  let checked : Checked α := match v with
    | .map es => check es
    | .null => refuse .present v
    | v => refuse .attributes v
  checked.under (.name "body")

def bodyOf {α : Type} (check : Entries → Checked α) (s : String) : Except Refusal α := do
  let v ← (readBody s).mapError Refusal.response
  (checkBody check v).mapError fun ps => .response (.invalid doubleBound ps)

/-- A context for one function. -/
structure Evaluation where
  context : Entries
  strict : Bool

def Evaluation.check (es : Entries) : Checked Evaluation :=
  Checked.ap ((withDefault es "context" mapping []).map Evaluation.mk)
    (withDefault es "strict" boolean false)

/-- A content, and what it is validated against. -/
structure Validation where
  content : Value
  levels : Value
  minimum : Option Float
  strict : Option Bool
  report : Bool

/-- A name or a number of a level; each alternative has its own problem. -/
def levelValue (v : Value) : Checked Value :=
  match v with
  | .str _ => .ok v
  | v =>
    match integer v with
    | .ok i => .ok (.int i)
    | .error ps =>
      .error (⟨.text, [.name "str"], v⟩ :: ps.map (Problem.under (.name "int")))

def levelsValue (v : Value) : Checked Value :=
  match v with
  | .null => .ok .null
  | v => (listOf levelValue v).map .list

/-- A score that is asked for lies between zero and ten. -/
def scoreRange : StrictInput.Range := ⟨some 10⟩

def leastScore (v : Value) : Checked Float := do
  let x ← number v
  match scoreRange.broken? x with
  | some e => refuse e v
  | none => .ok x

def Validation.check (es : Entries) : Checked Validation :=
  Checked.ap (Checked.ap (Checked.ap (Checked.ap
    ((Schema.required es "content" .ok).map Validation.mk)
    (withDefault es "levels" levelsValue .null))
    (withDefault es "min_score" (optional leastScore) none))
    (withDefault es "strict" (optional boolean) none))
    (withDefault es "include_report" boolean false)

/-- A phase, or a bare checkpoint, and the context that it left. -/
structure Checkpoint where
  phase : Option Entries
  context : Entries

def Checkpoint.check (es : Entries) : Checked Checkpoint :=
  Checked.ap ((withDefault es "phase" (optional mapping) none).map Checkpoint.mk)
    (withDefault es "context" mapping [])

def defaultLimit : Int := 10

def greatestLimit : Nat := 100

/-- How many entries a query asks for. -/
def limitOf (t : Target) : Except Refusal Int :=
  match t.setting? "limit" with
  | none => .ok defaultLimit
  | some s =>
    let refusal (e : Expectation) : Except Refusal Int :=
      .error (.response (.invalid wholeBound [⟨e, [.name "query", .name "limit"], .str s⟩]))
    match readInteger s with
    | .error e => refusal e
    | .ok n =>
      if greatestLimit < n then refusal (.atMost greatestLimit)
      else if n < 1 then refusal (.atLeast 1)
      else .ok n

end DecisionGate.Web
