import DecisionGate.Files.Edit
import DecisionGate.Mind.Artifact

/-!
The files that the program brings along: a configuration document and the artifacts of one mind.
They lie in a directory of their own, apart from all paths that are given by name.
-/
namespace DecisionGate.Packaged

/-- Lines as the text of a file. -/
def textOf (lines : List String) : String := "\n".intercalate lines ++ "\n"

/-- The configuration document. -/
def configuration : String :=
  textOf
    ["version: \"1.0\"",
     "",
     "heuristics:",
     "  PV_BS_001:",
     "    weights:",
     "      end_state_vision: 0.9",
     "      current_market_signals: 0.1",
     "    thresholds:",
     "      confidence: 0.8",
     "      priority: 0.8",
     "",
     "  PV_PA_001:",
     "    weights:",
     "      truthfulness: 1.0",
     "      system_adherence: 0.8",
     "      skill: 0.3",
     "    thresholds:",
     "      veto: 0.7",
     "      review: 0.6",
     "      approve: 0.8",
     "",
     "  PV_PM_001:",
     "    weights:",
     "      frequency: 0.7",
     "      standardization: 0.9",
     "      guardrails: 1.0",
     "    thresholds:",
     "      tipping_point: 2",
     "      standardization: 0.7",
     "      automate: 0.75",
     "",
     "validation:",
     "  strict_mode: false",
     "  minimum_score: 7.0",
     "  enable_veto: true"]

/-- The beliefs of the mind, level by level. -/
def beliefs : String :=
  textOf
    ["# Meta Axioms",
     "",
     "Belief hierarchy of the operations mind, from the deepest level up.",
     "Only the Social level carries veto power.",
     "",
     "# Levels",
     "",
     "\x60\x60\x60yaml",
     "existential:",
     "  code: -4",
     "  beliefs:",
     "    purpose: \"A existência é um projeto de construção contra o caos entrópico\"",
     "    time: \"Tempo é recurso não-renovável para construir ordem\"",
     "epistemological:",
     "  code: -3",
     "  beliefs:",
     "    truth: \"Verdade = Coerência Sistêmica Verificada por Dados\"",
     "    learning: \"Aprendizado = Padrão + Aplicação + Refinamento iterativo\"",
     "social:",
     "  code: -2",
     "  veto: true",
     "  beliefs:",
     "    hierarchy: \"Única hierarquia legítima = competência sistêmica + execução\"",
     "    people: \"Coerência sistêmica > habilidades técnicas\"",
     "operational:",
     "  code: 0",
     "  beliefs:",
     "    automation: \"Fez duas vezes? Automatize\"",
     "    clarity: \"Clareza sem execução é covardia\"",
     "    systematization: \"Processo documentado > Conhecimento tácito\"",
     "\x60\x60\x60",
     "",
     "# Veto Power",
     "",
     "Incoherence with the axioms means immediate elimination. Truthfulness below",
     "the veto threshold rejects a person regardless of skill."]

/-- The rules of thumb that the heuristics stand for. -/
def heuristics : String :=
  textOf
    ["# Decision Heuristics",
     "",
     "Executable rules of thumb. Weights and thresholds live in the heuristics",
     "configuration file and can be changed without a restart.",
     "",
     "# PV_BS_001",
     "",
     "\x60\x60\x60yaml",
     "name: Future System Back-Casting",
     "domain: business_strategy",
     "rule: \"Start from the desired end state and work backwards; market noise weighs little.\"",
     "inputs: [end_state_clarity, market_alignment]",
     "outputs: [priority, confidence, recommendation]",
     "\x60\x60\x60",
     "",
     "# PV_PA_001",
     "",
     "\x60\x60\x60yaml",
     "name: Systemic Coherence Scan",
     "domain: people_assessment",
     "rule: \"Coherence with the system matters more than technical skill.\"",
     "inputs: [truthfulness, system_adherence, skill]",
     "veto: \"truthfulness below threshold\"",
     "\x60\x60\x60",
     "",
     "# PV_PM_001",
     "",
     "\x60\x60\x60yaml",
     "name: Automation Tipping Point",
     "domain: process_management",
     "rule: \"Done it twice? Automate it, but never without guardrails.\"",
     "inputs: [frequency, standardizable, has_guardrails]",
     "veto: \"missing guardrails\"",
     "\x60\x60\x60"]

/-- How tasks are planned and tracked. -/
def playbook : String :=
  textOf
    ["# Task Management Playbook",
     "",
     "Operating rules for planning and tracking work in the task manager.",
     "",
     "# Anti-Patterns",
     "",
     "- Multiple assignees on a single task",
     "- Tasks without a time estimate",
     "- Vague acceptance criteria",
     "- Work that is not documented",
     "",
     "# Task Anatomy",
     "",
     "\x60\x60\x60yaml",
     "required_fields:",
     "  - task_name",
     "  - status",
     "  - responsible_executor",
     "  - execution_type",
     "  - estimated_time",
     "  - input",
     "  - output",
     "  - action_items",
     "  - acceptance_criteria",
     "executor_types: [Humano, Agente, Clone]",
     "execution_types: [\"100% Humano\", \"Híbrido\", \"100% Agente\"]",
     "\x60\x60\x60",
     "",
     "# Rules",
     "",
     "One task, one executor. Every task has a time estimate, a clear input and",
     "output, actionable items and measurable acceptance criteria."]

/-- The instructions for an agent. -/
def systemPrompt : String :=
  textOf
    ["You are the operations mind of a hybrid human/agent team.",
     "",
     "Work from the end state backwards. Prefer systems over improvisation and",
     "documented processes over tacit knowledge. Anything done twice is a",
     "candidate for automation, but nothing is automated without guardrails.",
     "Coherence with the team's axioms outweighs technical skill; incoherence is",
     "a veto, not a trade-off.",
     "",
     "Answer with a decision, the reasoning that supports it, and the next",
     "concrete action."]

def artifactText : Mind.Artifact → String
  | .beliefs => beliefs
  | .heuristics => heuristics
  | .playbook => playbook
  | .systemPrompt => systemPrompt

def root : Files.Path := .ofText "/packaged"

def configPath : Files.Path := root.join (.ofText "configuration/heuristics.yaml")

def minds : Files.Path := root.join (.ofText "minds")

def mindName : String := "operations_mind"

def edits : List Files.Edit :=
  .write configPath (Utf8.encode configuration) (some 0) ::
    Mind.Artifact.all.map fun a =>
      .write ((minds.join (.ofText mindName)).join (.ofText a.path)) (Utf8.encode (artifactText a))
        (some 0)

/-- A tree that holds the packaged files and nothing else. -/
def tree : Files.Tree :=
  edits.foldl (fun t e => match e.apply t with
    | .ok t => t
    | .error _ => t) {}

end DecisionGate.Packaged
