import DecisionGate.Text.Quoted
import DecisionGate.Text.Utf8

/-!
Why a document is refused. Most faults are told apart by no one; those of scalars whose explicit tag
does not fit them are, because they stop more than the reading.
-/
namespace DecisionGate.Yaml

/-- A scalar whose tag does not fit it. -/
inductive TagProblem where
  /-- It is none of the numbers, or none of the dates, that it is said to be. -/
  | number (message : String)
  | flag (text : String)
  | empty
  | tooLarge
  deriving DecidableEq, Repr

def TagProblem.message : TagProblem → String
  | .number message => message
  | .flag text => Text.quoted text
  | .empty => "string index out of range"
  | .tooLarge => "int too large to convert to float"

inductive Problem where
  | malformed
  /-- An escape that stands for no character. -/
  | codePoint (n : Nat)
  | scalar (p : TagProblem)
  /-- The file is no text any more from some place on. -/
  | undecodable (p : Utf8.Problem)
  | tooDeep
  deriving DecidableEq, Repr

abbrev Read (α : Type) := Except Problem α

end DecisionGate.Yaml
