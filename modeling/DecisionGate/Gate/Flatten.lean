import DecisionGate.Criteria.Snake
import DecisionGate.Failure
import DecisionGate.Value.Text

/-!
One flat table of everything that a nested mapping holds. A nested name is joined to the names above
it with an underscore, and each level keeps its own entry besides those of its members. When two
paths come down to one name, the later one wins.
-/
namespace DecisionGate.Gate

/-- A name below another; at the top there is none above. -/
def joinName (above name : String) : String :=
  if above.isEmpty then name else above ++ "_" ++ name

mutual

/-- All names with their values, in the order in which they are met. -/
def namesBelow (above : String) : List (Key × Value) → List (String × Value)
  | [] => []
  | (k, v) :: rest =>
    let name := joinName above (Criteria.toSnake k.text)
    (name, v) :: (membersBelow name v ++ namesBelow above rest)

def membersBelow (above : String) : Value → List (String × Value)
  | .map es => namesBelow above es
  | _ => []

end

def flatten (es : Entries) : Entries := Entries.ofList (Entries.ofNames (namesBelow "" es))

mutual

/-- What keeps a mapping from being made flat: a name that cannot be shown, or a mapping that holds
itself. -/
def flatFault? : List (Key × Value) → Option Failure
  | [] => none
  | (k, v) :: rest =>
    if k.hasText then (memberFault? v).or (flatFault? rest) else some (.fault .integerTooLong)

def memberFault? : Value → Option Failure
  | .map es => flatFault? es
  | .endless _ => some .tooDeep
  | _ => none

end

end DecisionGate.Gate
