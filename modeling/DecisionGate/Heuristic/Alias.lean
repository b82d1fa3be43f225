import DecisionGate.Heuristic.Builtin
import DecisionGate.Value.Basic

/-!
Callers name one quantity in several ways, flat or nested. Each canonical field has a list of paths
that are tried in order; the first that leads to something other than null gives the value.
-/
namespace DecisionGate

/-- A canonical field and the paths that lead to it. -/
structure Alias where
  field : String
  paths : List (List String)
  deriving DecidableEq, Repr

def backCastingAliases : List Alias :=
  [⟨"end_state_clarity",
      [["endStateVision", "clarity"], ["endStateClarity"], ["end_state_clarity"]]⟩,
   ⟨"market_alignment",
      [["marketSignals", "alignment"], ["marketAlignment"], ["market_alignment"]]⟩]

def coherenceAliases : List Alias :=
  [⟨"truthfulness", [["truthfulness"], ["truthfulnessCoherence"]]⟩,
   ⟨"system_adherence",
      [["systemAdherence"], ["systemAdherencePotential"], ["system_adherence"]]⟩,
   ⟨"skill", [["skill"], ["technicalSkill"], ["technical_skill"]]⟩]

def automationAliases : List Alias :=
  [⟨"frequency", [["frequency"], ["executionsPerMonth"], ["executions_per_month"]]⟩,
   ⟨"standardizable", [["standardizable"], ["standardization"]]⟩,
   ⟨"has_guardrails", [["hasGuardrails"], ["guardrails"], ["has_guardrails"]]⟩]

def Builtin.aliases : Builtin → List Alias
  | .backCasting => backCastingAliases
  | .coherenceScan => coherenceAliases
  | .automationCheck => automationAliases

/-- Walks nested mappings; null when a step is missing or no mapping. -/
def Value.at (v : Value) : List String → Value
  | [] => v
  | name :: rest => (v.field name).at rest

def Alias.resolve (a : Alias) (context : Value) : Value :=
  ((a.paths.map context.at).find? fun v => !v.isNull).getD .null

/-- Every canonical field with its value, null for those that no path leads to. -/
def canonical (aliases : List Alias) (context : Value) : Entries :=
  Entries.ofNames (aliases.map fun a => (a.field, a.resolve context))

end DecisionGate
