import DecisionGate.Value.Text

/-!
Problems that schema checks find: what was expected, where, and what was there instead.
-/
namespace DecisionGate.Schema

inductive Expectation where
  | present
  | number
  | numberText
  | atLeast (bound : Nat)
  | atMost (bound : Nat)
  | boolean
  | booleanText
  | integer
  | integerText
  | integerSize
  | wholeNumber
  | finiteNumber
  | list
  | mapping
  | attributes
  | text
  | unicode
  | choice (options : List String)
  | literal (options : List String)
  | rule (message : String)
  | model (title : String)
  | modelFields (title : String)
  | json (reason : String)
  deriving DecidableEq, Repr

/-- A place inside a document. -/
inductive Step where
  | name (s : String)
  | index (i : Nat)
  deriving DecidableEq, Repr

def Step.text : Step → String
  | .name s => s
  | .index i => Format.integer i

structure Problem where
  expectation : Expectation
  place : List Step
  input : Value

/-- `'a', 'b' or 'c'`. -/
def alternatives (options : List String) : String :=
  let quotedOptions := options.map fun o => "'" ++ o ++ "'"
  match quotedOptions.reverse with
  | [] => ""
  | [only] => only
  | last :: before => ", ".intercalate before.reverse ++ " or " ++ last

namespace Expectation

/-- The short name of the kind of problem. -/
def code : Expectation → String
  | present => "missing"
  | number => "float_type"
  | numberText => "float_parsing"
  | atLeast _ => "greater_than_equal"
  | atMost _ => "less_than_equal"
  | boolean => "bool_type"
  | booleanText => "bool_parsing"
  | integer => "int_type"
  | integerText => "int_parsing"
  | integerSize => "int_parsing_size"
  | wholeNumber => "int_from_float"
  | finiteNumber => "finite_number"
  | list => "list_type"
  | mapping => "dict_type"
  | attributes => "model_attributes_type"
  | text => "string_type"
  | unicode => "string_unicode"
  | choice _ => "enum"
  | literal _ => "literal_error"
  | rule _ => "value_error"
  | model _ => "model_type"
  | modelFields _ => "model_type"
  | json _ => "json_invalid"

def message : Expectation → String
  | present => "Field required"
  | number => "Input should be a valid number"
  | numberText => "Input should be a valid number, unable to parse string as a number"
  | atLeast bound => s!"Input should be greater than or equal to {bound}"
  | atMost bound => s!"Input should be less than or equal to {bound}"
  | boolean => "Input should be a valid boolean"
  | booleanText => "Input should be a valid boolean, unable to interpret input"
  | integer => "Input should be a valid integer"
  | integerText => "Input should be a valid integer, unable to parse string as an integer"
  | integerSize => "Unable to parse input string as an integer, exceeded maximum size"
  | wholeNumber => "Input should be a valid integer, got a number with a fractional part"
  | finiteNumber => "Input should be a finite number"
  | list => "Input should be a valid list"
  | mapping => "Input should be a valid dictionary"
  | attributes => "Input should be a valid dictionary or object to extract fields from"
  | text => "Input should be a valid string"
  | unicode => "Input should be a valid string, unable to parse raw data as a unicode string"
  | choice options => "Input should be " ++ alternatives options
  | literal options => "Input should be " ++ alternatives options
  | rule message => "Value error, " ++ message
  | model title => s!"Input should be a valid dictionary or instance of {title}"
  | modelFields title => s!"Input should be a valid dictionary or instance of {title}"
  | json _ => "JSON decode error"

end Expectation

namespace Problem

def message (p : Problem) : String := p.expectation.message

/-- The place as one text, its steps joined by points. -/
def placeText (p : Problem) : String := ".".intercalate (p.place.map Step.text)

def under (step : Step) (p : Problem) : Problem := { p with place := step :: p.place }

end Problem

/-- A report of several problems: a head line, then a line for the place and one for the message of
each. A problem of the whole document has no line for its place. -/
def report (title : String) (problems : List Problem) : String :=
  let n := problems.length
  let plural := if n = 1 then "" else "s"
  let head := s!"{n} validation error{plural} for {title}"
  let body := problems.flatMap fun p =>
    (if p.place.isEmpty then [] else [p.placeText]) ++ ["  " ++ p.message]
  "\n".intercalate (head :: body)

end DecisionGate.Schema
