import DecisionGate.Text.Blank
import DecisionGate.Text.Case

/-!
Names in snake case. Every name comes down to small ASCII letters and digits with single underscores
between them, so that a subject in words and a key in camel case meet.
-/
namespace DecisionGate.Criteria

def isSmall (c : Char) : Bool := ('a' ≤ c && c ≤ 'z') || ('0' ≤ c && c ≤ '9')

def isCapital (c : Char) : Bool := 'A' ≤ c && c ≤ 'Z'

/-- An underscore before every capital that follows a small letter or a digit. -/
def splitCamel (previous : Bool) : List Char → List Char
  | [] => []
  | c :: rest =>
    if previous && isCapital c then '_' :: c :: splitCamel (isSmall c) rest
    else c :: splitCamel (isSmall c) rest

/-- One underscore for every run of other characters. -/
def collapse (inRun : Bool) : List Char → List Char
  | [] => []
  | c :: rest =>
    if isSmall c then c :: collapse false rest
    else if inRun then collapse true rest
    else '_' :: collapse true rest

def snakeChars (cs : List Char) : List Char :=
  Text.trimBy (· == '_') (collapse false (Text.lower (splitCamel false (Text.trim cs))))

/-- `End-state vision` and `endStateVision` both become `end_state_vision`. -/
def toSnake (name : String) : String := String.ofList (snakeChars name.toList)

end DecisionGate.Criteria
