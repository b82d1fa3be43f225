import DecisionGate.Heuristic.Decision
import DecisionGate.Config.Defaults
import DecisionGate.Failure

/-!
Templates turn a section of the configuration into a decision function. A function of a built-in
template is data, the settings it was compiled with; a custom template brings its own. A configured
zero counts; only what is absent or null falls back to the default.
-/
namespace DecisionGate

/-- A configured parameter, or the default when there is none. -/
def parameter (config : Entries) (b : Builtin) (group : Group) (key : String) : Value :=
  match ((config.get? group.name).getD .null).field key with
  | .null => (Entries.get? (Entries.ofNames (Config.defaultGroup b group)) key).getD .null
  | v => v

def BackCasting.settings (config : Entries) : BackCasting.Settings Value :=
  let get := parameter config .backCasting
  { endStateWeight := get .weights "end_state_vision"
    marketWeight := get .weights "current_market_signals"
    confidence := get .thresholds "confidence"
    priority := get .thresholds "priority" }

def Coherence.settings (config : Entries) : Coherence.Settings Value :=
  let get := parameter config .coherenceScan
  { truthfulnessWeight := get .weights "truthfulness"
    systemWeight := get .weights "system_adherence"
    skillWeight := get .weights "skill"
    veto := get .thresholds "veto"
    approve := get .thresholds "approve"
    review := get .thresholds "review" }

def Automation.settings (config : Entries) : Automation.Settings Value :=
  let get := parameter config .automationCheck
  { frequencyWeight := get .weights "frequency"
    standardizationWeight := get .weights "standardization"
    guardrailsWeight := get .weights "guardrails"
    tippingPoint := get .thresholds "tipping_point"
    standardization := get .thresholds "standardization"
    automate := get .thresholds "automate" }

/-- What a registered template makes of a section: a function of contexts. Either can fail. -/
structure CustomAction where
  compile : Value → Except Failure (Value → Except Failure Value)

namespace CustomAction

/-- Returns the section and the context. -/
def echo : CustomAction where
  compile config :=
    .ok fun context => .ok (Value.ofNames [("config", config), ("context", context)])

def constant (v : Value) : CustomAction where
  compile _ := .ok fun _ => .ok v

def failCompile : CustomAction where
  compile _ := .error (.badValue "compile failed")

def failCall : CustomAction where
  compile _ := .ok fun _ => .error (.badValue "call failed")

end CustomAction

/-- What a compiled function does with a context. -/
inductive Behaviour where
  | backCasting (s : BackCasting.Settings Value)
  | coherence (s : Coherence.Settings Value)
  | automation (s : Automation.Settings Value)
  | custom (call : Value → Except Failure Value)

/-- The outcome of a call: a decision of a built-in heuristic or a value of a custom one. -/
inductive Answer where
  | decision (d : Decision)
  | value (v : Value)

/-- Decisions in their JSON form, other values as they are. -/
def Answer.toJson : Answer → Value
  | .decision d => d.toJson
  | .value v => v

def liftInput {α : Type} (r : Except InputFailure α) : Except Failure α :=
  r.mapError Failure.ofInput

def liftFault {α : Type} (r : Except Fault α) : Except Failure α := r.mapError Failure.fault

def Behaviour.run (b : Behaviour) (context : Value) : Except Failure Answer :=
  match b with
  | .backCasting s => do
    let i ← liftInput (BackCastingInput.ofContext context)
    .ok (.decision (← liftFault (BackCasting.decide s i)))
  | .coherence s => do
    let i ← liftInput (CoherenceInput.ofContext context)
    .ok (.decision (← liftFault (Coherence.decide s i)))
  | .automation s => do
    let i ← liftInput (AutomationInput.ofContext context)
    .ok (.decision (← liftFault (Automation.decide s i)))
  | .custom call => (call context).map .value

/-- The function that a built-in heuristic becomes under a section. -/
def Builtin.behaviour (b : Builtin) (config : Entries) : Behaviour :=
  match b with
  | .backCasting => .backCasting (BackCasting.settings config)
  | .coherenceScan => .coherence (Coherence.settings config)
  | .automationCheck => .automation (Automation.settings config)

/-- Where the functions of a template come from. -/
inductive Source where
  | builtin (b : Builtin)
  | custom (action : CustomAction)

structure Template where
  id : String
  name : String
  domain : String
  source : Source

def Template.kind (t : Template) : Kind :=
  match t.source with
  | .builtin b => .builtin b
  | .custom _ => .custom

def Template.toEntries (t : Template) : List (String × Value) :=
  [("id", .str t.id), ("name", .str t.name), ("domain", .str t.domain),
   ("kind", .str t.kind.name)]

def Builtin.template (b : Builtin) : Template :=
  { id := b.id, name := b.title, domain := b.domain, source := .builtin b }

/-- A section that is no mapping cannot be asked for parameters. -/
def Template.compile (t : Template) (config : Value) : Except Failure Behaviour :=
  match t.source with
  | .custom action => (action.compile config).map .custom
  | .builtin b =>
    match config with
    | .map es => .ok (b.behaviour es)
    | v => .error (.fault (.noMember v.kindName "get"))

end DecisionGate
