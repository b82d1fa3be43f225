import DecisionGate.Yaml.Problem

/-!
The lexemes of a document. Indentation has become tokens of its own, which open and close block
collections.
-/
namespace DecisionGate.Yaml

inductive Directive where
  | version (major : Nat)
  | handle (name uri : String)
  | other
  deriving DecidableEq, Repr

/-- A tag as it is written: the handle that stands for the beginning of its name, if it has one. -/
structure TagText where
  handle : Option String
  suffix : String
  deriving DecidableEq, Repr

inductive Token where
  | directive (d : Directive)
  | documentStart
  | documentEnd
  | blockSequence
  | blockMapping
  | blockEnd
  | flowSequence
  | flowSequenceEnd
  | flowMapping
  | flowMappingEnd
  | blockEntry
  | flowEntry
  | key
  | value
  | reference (name : String)
  | anchor (name : String)
  | tag (t : TagText)
  | scalar (text : String) (plain : Bool)
  deriving DecidableEq, Repr

end DecisionGate.Yaml
