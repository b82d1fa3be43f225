import DecisionGate.Criteria.Problem
import DecisionGate.Files.Problem
import DecisionGate.Heuristic.Input
import DecisionGate.Text.Utf8
import DecisionGate.Time.Duration
import DecisionGate.Yaml.Problem

/-!
Every way in which an operation can fail. A failure is its cause; the wording of each is here, and a
caller that has to name the kind of failure reads it off the constructor.
-/
namespace DecisionGate

/-- Why a custom template is not registered. -/
inductive Rejection where
  | overBuiltin (id : String)
  | malformed
  deriving DecidableEq, Repr

inductive Failure where
  | input (p : InputProblem)
  | unknownHeuristic (id : String)
  | rejectedTemplate (r : Rejection)
  | artifactMissing (path : String)
  | mindMissing (name : String) (searched : List String)
  | mindLoad (cause : Failure)
  | mindNotLoaded (action : String)
  | execution (id : String) (cause : Failure)
  | unknownValidator (name : String)
  | criteria (problems : List Criteria.Problem)
  | schema (title : String) (problems : List Schema.Problem)
  | response
  | fault (f : Fault)
  | badValue (message : String)
  | decoding (p : Utf8.Problem)
  | encoding (g : Utf8.Gap)
  | file (p : Files.Problem)
  | tag (p : Yaml.TagProblem)
  | codePoint (n : Nat)
  | badType
  /-- Something nests too deeply, or holds itself, and was followed to the end of the stack. -/
  | tooDeep
  | noEventLoop

namespace Failure

def message : Failure → String
  | input p => p.message
  | unknownHeuristic id => s!"Unknown heuristic ID: {id}. Register a custom template first."
  | rejectedTemplate (.overBuiltin id) =>
    s!"Cannot register custom template over built-in heuristic {id}"
  | rejectedTemplate .malformed => "Custom template must have name, domain, and compile function"
  | artifactMissing path => s!"Artifact not found: {path}"
  | mindMissing name searched =>
    let rows := searched.zipIdx.map fun (p, i) => s!"  {i + 1}. {p}"
    s!"Mind '{name}' not found in any location.\nSearched paths:\n" ++ "\n".intercalate rows
  | mindLoad cause => s!"Mind loading failed: {cause.message}"
  | mindNotLoaded action => s!"Mind must be loaded before {action}. Call load() first."
  | execution id cause => s!"Heuristic {id} execution failed: {cause.message}"
  | unknownValidator name => s!"Unknown validator: {name}"
  | criteria problems => Criteria.message problems
  | schema title problems => Schema.report title problems
  | response => ""
  | fault f => f.message
  | badValue message => message
  | decoding p => p.message
  | encoding g => g.message
  | file p => p.message
  | tag p => p.message
  | codePoint _ => "chr() arg not in range(0x110000)"
  | badType => ""
  | tooDeep => "maximum recursion depth exceeded"
  | noEventLoop => "no running event loop"

/-- Failures of the library's own kinds, which the gate and the tools report instead of passing
them on. -/
def isDomain : Failure → Bool
  | input _ => true
  | unknownHeuristic _ => true
  | rejectedTemplate _ => true
  | artifactMissing _ => true
  | mindMissing _ _ => true
  | mindLoad _ => true
  | mindNotLoaded _ => true
  | execution _ _ => true
  | unknownValidator _ => true
  | criteria _ => true
  | _ => false

/-- Failures that count as the failed loading of a mind; all others are passed on. -/
def stopsLoading : Failure → Bool
  | schema _ _ => true
  | fault .integerTooLarge => false
  | fault (.noMember _ _) => false
  | fault _ => true
  | badValue _ => true
  | decoding _ => true
  | encoding _ => true
  | file _ => true
  | tag (.number _) => true
  | codePoint n => n < twoTo 31
  | badType => true
  | f => f.isDomain

def ofInput : InputFailure → Failure
  | .problem p => .input p
  | .fault f => .fault f

def ofDuration : Duration.Problem → Failure
  | .notNumber => .badType
  | .notANumber => .badValue "cannot convert float NaN to integer"
  | .tooLarge => .fault .integerTooLarge

/-- What stops the reading of a document for good. -/
def ofYaml : Yaml.Problem → Failure
  | .malformed => .badType
  | .codePoint n => .codePoint n
  | .scalar p => .tag p
  | .undecodable p => .decoding p
  | .tooDeep => .tooDeep

end Failure

/-- What there is to walk through: the items of a list, the characters of a text or the keys of a
mapping. -/
def Value.members : Value → Except Failure (List Value)
  | .list xs => .ok xs
  | .str s => .ok (s.toList.map fun c => .str (String.singleton c))
  | .map es => .ok (es.map fun (k, _) => k.toValue)
  | _ => .error .badType

end DecisionGate
