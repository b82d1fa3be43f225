import DecisionGate.Mind.Basic

/-!
What a mind shows of itself: its metadata, and what it hands over to an agent. Nothing here changes
the mind.
-/
namespace DecisionGate.Mind

def sourceValue (m : Mind) : Value := Value.ofText? (m.source?.map Config.Source.text)

/-- An artifact that holds anything. -/
def hasArtifact (m : Mind) (a : Artifact) : Bool :=
  ((m.bundle.bind fun b => b.artifact? a.key).map Value.isTruthy).getD false

def functions (m : Mind) : List (Builtin × DecisionFunction) :=
  (m.bundle.map Bundle.functions).getD []

def metadata (m : Mind) : List (String × Value) :=
  [("loaded", .bool m.isLoaded), ("config_source", m.sourceValue),
   ("components", Value.ofNames (Artifact.all.map fun a => (a.key, .bool (m.hasArtifact a)))),
   ("decision_functions",
    Value.ofNames (m.functions.map fun (k, f) => (k.key, Value.ofNames f.toEntries))),
   ("cache_size", Value.ofNames
    [("artifacts", .int m.shelf.kept.length),
     ("compiled_heuristics", .int m.compiler.compiled.length)])]

/-- The entries that an attachment adds to an agent. -/
def Attachment.toEntries (a : Attachment) : List (String × Value) :=
  [("cognitive_layer", Value.ofTexts (a.artifacts.map fun p => p.1.key)),
   ("decision_functions", Value.ofTexts (a.functions.map fun p => p.1.key)),
   ("validation_rules", .map a.rules)]

/-- An agent is a mapping, or nothing yet; what is attached goes over its own entries. -/
def attach (m : Mind) (agent : Value) : Except Failure Entries := do
  let a ← m.attachment
  let own ← match agent with
    | .map es => .ok es
    | .null => .ok []
    | v => .error (.fault (.noMember v.kindName "cognitive_layer"))
  .ok (Entries.update own (Entries.ofNames a.toEntries))

end DecisionGate.Mind
