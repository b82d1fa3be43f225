import DecisionGate.Config.Check
import DecisionGate.Config.Overlay
import DecisionGate.Telemetry.Note

/-!
The choice of the configuration in effect: the overlay of the environment, else the document, else
the defaults. A document that does not pass the checks is reported and replaced by the defaults.
-/
namespace DecisionGate.Config

inductive Source where
  | file
  | environmentAndFile
  | environmentAndDefaults
  | defaults
  deriving DecidableEq, Repr

def Source.text : Source → String
  | .file => "file"
  | .environmentAndFile => "env+file"
  | .environmentAndDefaults => "env+defaults"
  | .defaults => "defaults"

/-- The document that would be in effect, before it is checked. -/
def candidate (file : Value) (env : Environment) : Except Fault (Option (Value × Source)) := do
  match ← overlay file env with
  | some es =>
    .ok (some (.map es, if file.isNull then .environmentAndDefaults else .environmentAndFile))
  | none => .ok (if file.isNull then none else some (file, .file))

def resolver : String := "config_resolver"

/-- The configuration in effect and where it comes from; `file` is null when there is no document.
-/
def resolve (file : Value) (env : Environment) : Report (Except Fault (Entries × Source)) :=
  match candidate file env with
  | .error f => pure (.error f)
  | .ok none => do
    noteInfo resolver "config_using_defaults"
    pure (.ok (defaultEntries, .defaults))
  | .ok (some (config, source)) =>
    match check config, config with
    | .error f, _ => pure (.error f)
    | .ok [], .map es => do
      noteInfo resolver "config_validated"
      pure (.ok (es, source))
    | .ok problems, _ => do
      note (.fallback "config_validation_failed" (Entries.ofNames
        [("component", .str resolver), ("errors_count", .int problems.length),
         ("config_source", .str source.text)]))
      noteWarning resolver "config_validation_failed"
      pure (.ok (defaultEntries, .defaults))

end DecisionGate.Config
