import DecisionGate.Text.Lines

/-!
The catalog of beliefs that content is scored against, in four levels from the deepest up. Keywords,
phrases and markers are written in small letters and are looked for anywhere in the small letters of
a content; the vocabulary is Portuguese, as is the material that it comes from.
-/
namespace DecisionGate.Belief

inductive Level where
  | existential
  | epistemological
  | social
  | operational
  deriving DecidableEq, Repr

namespace Level

/-- From the deepest level up. -/
def all : List Level := [.existential, .epistemological, .social, .operational]

def code : Level → Int
  | .existential => -4
  | .epistemological => -3
  | .social => -2
  | .operational => 0

def key : Level → String
  | .existential => "existential"
  | .epistemological => "epistemological"
  | .social => "social"
  | .operational => "operational"

/-- The key in capital letters. -/
def name : Level → String
  | .existential => "EXISTENTIAL"
  | .epistemological => "EPISTEMOLOGICAL"
  | .social => "SOCIAL"
  | .operational => "OPERATIONAL"

theorem mem_all (l : Level) : l ∈ all := by cases l <;> decide

end Level

inductive Severity where
  | critical
  | medium
  | low
  deriving DecidableEq, Repr

def Severity.text : Severity → String
  | .critical => "CRITICAL"
  | .medium => "MEDIUM"
  | .low => "LOW"

/-- A belief is worth so much for every distinct keyword, up to a cap. -/
structure Entry where
  key : String
  statement : String
  keywords : List String
  perHit : Float
  cap : Float
  strength : String
  manifestations : List String := []

/-- A fixed deduction for a pattern of phrases: one of `anyOf` if there are some, all of `allOf`,
and none of `noneOf`. -/
structure Penalty where
  belief : String
  reason : String
  severity : Severity
  amount : Float
  anyOf : List String := []
  allOf : List String := []
  noneOf : List String := []

/-- Markers that void a level unless a keyword of the belief occurs as well. -/
structure VetoRule where
  belief : String
  markers : List String
  reason : String
  deriving DecidableEq, Repr

structure LevelSpec where
  level : Level
  beliefs : List Entry
  penalties : List Penalty := []
  veto : Option VetoRule := none

def Penalty.applies (p : Penalty) (content : String) : Bool :=
  (p.anyOf.isEmpty || p.anyOf.any (Text.contains content)) &&
    p.allOf.all (Text.contains content) && !p.noneOf.any (Text.contains content)

/-- How many distinct keywords occur. -/
def hits (content : String) (keywords : List String) : Nat :=
  keywords.countP (Text.contains content)

def existentialSpec : LevelSpec where
  level := .existential
  beliefs :=
    [{ key := "purpose"
       statement := "A existência é um projeto de construção contra o caos entrópico"
       manifestations :=
         ["Propósito sem sistema é agonia", "Clareza sem execução é covardia",
          "Sistema sem propósito é mecanicismo morto"]
       keywords :=
         ["propósito", "sistema", "construção", "ordem", "caos", "clareza", "execução"]
       perHit := 0.5
       cap := 2.5
       strength := "Demonstrates purpose-driven thinking" },
     { key := "time"
       statement := "Tempo é recurso não-renovável para construir ordem"
       manifestations :=
         ["Fez duas vezes? Automatize", "Clareza antecede execução",
          "Decisão > Perfeição paralisante"]
       keywords := ["tempo", "automação", "eficiência", "decisão", "ação"]
       perHit := 0.5
       cap := 2.5
       strength := "Shows awareness of time as scarce resource" }]
  penalties :=
    [{ belief := "purpose"
       reason := "Content suggests purposeless or systemless approach"
       severity := .medium
       amount := 2.0
       anyOf := ["sem propósito", "sem sistema"] }]

def epistemologicalSpec : LevelSpec where
  level := .epistemological
  beliefs :=
    [{ key := "truth"
       statement := "Verdade = Coerência Sistêmica Verificada por Dados"
       keywords := ["verdade", "dados", "coerência", "sistema", "verificação", "evidência"]
       perHit := 0.6
       cap := 3.0
       strength := "Evidence-based and data-driven approach" },
     { key := "learning"
       statement := "Aprendizado = Padrão + Aplicação + Refinamento iterativo"
       keywords := ["aprendizado", "padrão", "iteração", "refinamento", "aplicação"]
       perHit := 0.4
       cap := 2.0
       strength := "Demonstrates iterative learning mindset" }]
  penalties :=
    [{ belief := "truth"
       reason := "Relies on opinion without data verification"
       severity := .medium
       amount := 1.5
       allOf := ["opinião"]
       noneOf := ["dados"] }]

def socialVeto : VetoRule where
  belief := "people"
  markers := ["incoerente", "contraditório"]
  reason := "Detected systemic incoherence - VETO applied per PV_PA_001"

def socialSpec : LevelSpec where
  level := .social
  beliefs :=
    [{ key := "hierarchy"
       statement := "Única hierarquia legítima = competência sistêmica + execução"
       manifestations :=
         ["Autoridade sem competência = tirania", "Competência sem execução = inutilidade",
          "Execução sem sistema = caos eficiente"]
       keywords := ["competência", "execução", "hierarquia", "autoridade", "resultado"]
       perHit := 0.5
       cap := 2.5
       strength := "Focus on competence and execution" },
     { key := "people"
       statement := "Coerência sistêmica > habilidades técnicas"
       keywords := ["coerência", "alinhamento", "verdade", "integridade", "sistema"]
       perHit := 0.5
       cap := 2.5
       strength := "Demonstrates systemic coherence" }]
  veto := some socialVeto

def operationalSpec : LevelSpec where
  level := .operational
  beliefs :=
    [{ key := "automation"
       statement := "Fez duas vezes? Automatize"
       keywords := ["automação", "repetição", "eficiência", "escala"]
       perHit := 0.7
       cap := 2.0
       strength := "Shows automation awareness" },
     { key := "clarity"
       statement := "Clarity without execution is cowardice"
       manifestations :=
         ["Decisão > Análise paralítica", "Ação > Perfeição teórica", "Sistema > Ad-hoc"]
       keywords := ["clareza", "execução", "decisão", "ação", "coragem"]
       perHit := 0.6
       cap := 2.0
       strength := "Demonstrates clarity and action orientation" },
     { key := "systematization"
       statement := "Processo documentado > Conhecimento tácito"
       keywords := ["documentação", "processo", "sistema", "padrão", "replicabilidade"]
       perHit := 0.5
       cap := 1.0
       strength := "Demonstrates systematic thinking" }]
  penalties :=
    [{ belief := "automation"
       reason := "Suggests manual repetitive work (should automate)"
       severity := .low
       amount := 1.0
       allOf := ["manual", "repetitivo"] }]

def spec : Level → LevelSpec
  | .existential => existentialSpec
  | .epistemological => epistemologicalSpec
  | .social => socialSpec
  | .operational => operationalSpec

end DecisionGate.Belief
