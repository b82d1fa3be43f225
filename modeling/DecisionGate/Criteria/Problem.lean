import DecisionGate.Schema.Problem

/-!
Why a criterion is refused, and where in its text.
-/
namespace DecisionGate.Criteria

inductive Reason where
  | unterminatedNote
  | strayParenthesis
  | noteNotLast
  | subjectExpected
  | belowNotComparator
  | subjectAfterNo
  | belowExpected
  | numberAfterBelow
  | numberAfter (comparator : String)
  | textAfterNumber
  | comparatorExpected
  | notACriterion
  | schema (problems : List Schema.Problem)

/-- The title of the schema of a criterion. -/
def schemaTitle : String := "Criterion"

def Reason.message : Reason → String
  | .unterminatedNote => "unterminated annotation, expected ')'"
  | .strayParenthesis => "unexpected ')'"
  | .noteNotLast => "annotation must come last"
  | .subjectExpected => "expected a subject"
  | .belowNotComparator => "expected 'below', got a comparator"
  | .subjectAfterNo => "expected a subject after 'no'"
  | .belowExpected => "expected 'below'"
  | .numberAfterBelow => "expected a number after 'below'"
  | .numberAfter comparator => s!"expected a number after {Text.quoted comparator}"
  | .textAfterNumber => "unexpected text after number"
  | .comparatorExpected => "expected a comparator (≥ >= > ≤ <= < = ==) or 'present'"
  | .notACriterion => "criterion must be a string or mapping"
  | .schema problems => Schema.report schemaTitle problems

structure Problem where
  text : String
  position : Nat
  reason : Reason

/-- All problems of a list of criteria, one after the other. -/
def message (problems : List Problem) : String :=
  let parts := problems.map fun p =>
    s!"{Text.quoted p.text} at position {p.position}: {p.reason.message}"
  s!"{problems.length} invalid criteria: " ++ "; ".intercalate parts

end DecisionGate.Criteria
