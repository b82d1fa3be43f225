import DecisionGate.Belief.Catalog
import DecisionGate.Failure
import DecisionGate.Json.Printer
import DecisionGate.Text.Case

/-!
Scoring a content against one level: a neutral baseline, capped bonuses for the keywords of each
belief, fixed deductions for phrases, and the veto that voids the level. The score stays between
zero and ten.
-/
namespace DecisionGate.Belief

/-- A strength or a violation. -/
structure Finding where
  belief : String
  reason : String
  level : Option Level := none
  severity : Option Severity := none
  impact : Option String := none
  deriving DecidableEq, Repr

structure LevelScore where
  score : Float
  violations : List Finding
  strengths : List Finding
  veto : Bool
  vetoReason : Option String

def baseline : Float := 5.0

def leastScore : Float := 0.0

def greatestScore : Float := 10.0

mutual

/-- What keeps a content from being written: the first integer on the way that is too long, or the
content itself inside of it. -/
def textFailure? : Value → Option Failure
  | .int i => if Format.hasText i then none else some (.fault .integerTooLong)
  | .list xs => itemsFailure? xs
  | .map es => membersFailure? es
  | .endless _ => some (.badValue "Circular reference detected")
  | _ => none

def itemsFailure? : List Value → Option Failure
  | [] => none
  | v :: rest => (textFailure? v).or (itemsFailure? rest)

/-- A key is written before its value. -/
def membersFailure? : List (Key × Value) → Option Failure
  | [] => none
  | (k, v) :: rest =>
    if k.hasText then (textFailure? v).or (membersFailure? rest)
    else some (.fault .integerTooLong)

end

/-- The text of a content that can be written. Structured content is scored as its JSON text. -/
def contentText : Value → String
  | .str s => s
  | v => Json.line v

/-- What a content is written as, if it can be. -/
def written (content : Value) : Except Failure String :=
  match textFailure? content with
  | some f => .error f
  | none => .ok (contentText content)

/-- A text as it is searched. -/
def lowered (text : String) : String := String.ofList (Text.lower text.toList)

def bonus (e : Entry) (content : String) : Float :=
  let earned := Float.ofNat (hits content e.keywords) * e.perHit
  if e.cap < earned then e.cap else earned

/-- The beliefs with a hit. -/
def matched (s : LevelSpec) (content : String) : List Entry :=
  s.beliefs.filter fun e => 0 < hits content e.keywords

def strengthOf (content : String) (e : Entry) : Finding :=
  { belief := e.key, reason := e.strength
    impact := some ("+" ++ Format.fixedDouble 1 (bonus e content)) }

def violationOf (p : Penalty) : Finding :=
  { belief := p.belief, reason := p.reason, severity := some p.severity
    impact := some ("-" ++ Format.fixedDouble 1 p.amount) }

/-- Whether the veto is triggered: no keyword of its belief occurs, and a marker does. -/
def VetoRule.triggered (r : VetoRule) (s : LevelSpec) (content : String) : Bool :=
  !((matched s content).any fun e => e.key == r.belief) && r.markers.any (Text.contains content)

def vetoOf? (s : LevelSpec) (content : String) : Option VetoRule :=
  s.veto.filter fun r => r.triggered s content

def vetoFinding (r : VetoRule) : Finding :=
  { belief := r.belief, reason := r.reason, severity := some .critical }

def clamp (x : Float) : Float :=
  let capped := if x < greatestScore then x else greatestScore
  if leastScore < capped then capped else leastScore

/-- The score of one level for a text in small letters. -/
def scoreLevel (s : LevelSpec) (content : String) : LevelScore :=
  let strong := matched s content
  let broken := s.penalties.filter fun p => p.applies content
  let raised := strong.foldl (fun acc e => acc + bonus e content) baseline
  let lowered := broken.foldl (fun acc p => acc - p.amount) raised
  let veto := vetoOf? s content
  { score := clamp (if veto.isSome then leastScore else lowered)
    violations := broken.map violationOf ++ veto.toList.map vetoFinding
    strengths := strong.map (strengthOf content)
    veto := veto.isSome
    vetoReason := veto.map VetoRule.reason }

end DecisionGate.Belief
