import DecisionGate.Mind.Sections

/-!
Where a mind's artifacts lie and what they hold. A mind has a directory of its own in one of several
places, and the first place that has it counts. An artifact that was read is kept, so that each is
read once until all are dropped.
-/
namespace DecisionGate.Mind

/-- The artifacts that every mind has, in the order in which they are read. -/
inductive Artifact where
  | beliefs
  | heuristics
  | playbook
  | systemPrompt
  deriving DecidableEq, Repr

namespace Artifact

def all : List Artifact := [.beliefs, .heuristics, .playbook, .systemPrompt]

def key : Artifact → String
  | .beliefs => "meta_axioms"
  | .heuristics => "decision_heuristics"
  | .playbook => "task_playbook"
  | .systemPrompt => "system_prompt"

/-- The path within the mind's directory. -/
def path : Artifact → String
  | .beliefs => "artifacts/meta_axioms.md"
  | .heuristics => "artifacts/decision_heuristics.md"
  | .playbook => "sources/task_management_playbook.md"
  | .systemPrompt => "system_prompts/system_prompt.txt"

theorem mem_all (a : Artifact) : a ∈ all := by cases a <;> decide

end Artifact

/-- The shelf of one mind: the directories to look in, what was read so far, and what reads the
fenced data. -/
structure Shelf where
  mind : String
  places : List Files.Path
  kept : List (String × Value) := []
  reader : Yaml.Reader := Yaml.reader

namespace Shelf

/-- The mind's directory among the minds, and after it that among the minds of old. -/
def ofDirectories (mind : String) (minds : Files.Path) (legacy : Option Files.Path)
    (reader : Yaml.Reader := Yaml.reader) : Shelf :=
  { mind, places := ([minds] ++ legacy.toList).map fun p => p.join (.ofText mind), reader }

/-- The first of some directories that is there. -/
def firstDirectory (tree : Files.Tree) : List Files.Path → Except Failure (Option Files.Path)
  | [] => .ok none
  | p :: rest =>
    match tree.isDirectory p with
    | .error problem => .error (.file problem)
    | .ok true => .ok (some p)
    | .ok false => firstDirectory tree rest

/-- The first place that is there; one that is not the preferred place is reported. -/
def base (s : Shelf) (tree : Files.Tree) : Report (Except Failure Files.Path) :=
  match firstDirectory tree s.places with
  | .error f => pure (.error f)
  | .ok none => pure (.error (.mindMissing s.mind (s.places.map Files.Path.text)))
  | .ok (some p) => do
    if s.places.head? ≠ some p then noteWarning artifactComponent "legacy_mind_path"
    pure (.ok p)

/-- What a text file is worth: sections when its name says so, else its text. -/
def valueOf (reader : Yaml.Reader) (path : Files.Path) (text : String) :
    Report (Except Failure Value) :=
  if path.extension = ".md" then do
    let es ← parseSections text reader
    pure (es.map .map)
  else pure (.ok (.str text))

/-- Reads a file as text with plain line breaks. -/
def readValue (reader : Yaml.Reader) (path : Files.Path) (tree : Files.Tree) :
    Report (Except Failure Value) :=
  match tree.octets path with
  | .error (.absent _) => pure (.error (.artifactMissing path.text))
  | .error p => pure (.error (.file p))
  | .ok octets =>
    match Utf8.decode octets with
    | .error p => pure (.error (.decoding p))
    | .ok text => valueOf reader path (String.ofList (Text.unixBreaks text.toList))

/-- The artifact at a path within the mind's directory. -/
def load (s : Shelf) (relative : String) (tree : Files.Tree) :
    Report (Except Failure Value × Shelf) :=
  match s.kept.lookup relative with
  | some v => do
    note (.hit artifactComponent)
    pure (.ok v, s)
  | none => do
    note (.miss artifactComponent)
    match ← s.base tree with
    | .error f => pure (.error f, s)
    | .ok base => do
      match ← readValue s.reader (base.join (.ofText relative)) tree with
      | .error f => pure (.error f, s)
      | .ok v => pure (.ok v, { s with kept := s.kept ++ [(relative, v)] })

/-- Reads artifacts in order, up to the first that fails. -/
def loadEach (s : Shelf) (tree : Files.Tree) :
    List Artifact → Report (Except Failure (List (Artifact × Value)) × Shelf)
  | [] => pure (.ok [], s)
  | a :: rest => do
    let (v, s) ← s.load a.path tree
    match v with
    | .error f => pure (.error f, s)
    | .ok v => do
      let (more, s) ← s.loadEach tree rest
      pure (more.map fun found => (a, v) :: found, s)

def loadAll (s : Shelf) (tree : Files.Tree) :
    Report (Except Failure (List (Artifact × Value)) × Shelf) :=
  s.loadEach tree Artifact.all

def clear (s : Shelf) : Shelf := { s with kept := [] }

end Shelf

end DecisionGate.Mind
