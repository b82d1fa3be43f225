import DecisionGate.Gate.Execution
import DecisionGate.Mind.Basic
import DecisionGate.Session.Basic

/-!
The services together: one mind with its store and its compiler, the sessions, the validator and the
gate, over one tree of files. Each operation says what it reports and what the services are after
it.
-/
namespace DecisionGate

structure Services where
  tree : Files.Tree
  mind : Mind
  sessions : Sessions
  validator : Belief.Validator := {}
  now : Instant := Instant.epoch

namespace Services

/-- What the services are built from. -/
structure Settings where
  configPath : Files.Path
  minds : Files.Path
  legacyMinds : Option Files.Path
  mindName : String
  environment : Config.Environment := []
  ttl : Duration
  historyLimit : Nat := 100
  reader : Yaml.Reader := Yaml.reader

def build (settings : Settings) (tree : Files.Tree) : Report (Except Failure Services) := do
  let mind : Mind :=
    { store := { path := settings.configPath, reader := settings.reader }
      shelf := .ofDirectories settings.mindName settings.minds settings.legacyMinds settings.reader
      environment := settings.environment }
  let (started, mind) ← mind.start tree
  pure (started.map fun _ =>
    { tree, mind, sessions := { ttl := settings.ttl }
      validator := { limit := settings.historyLimit } })

def withMind {α : Type} (s : Services) (r : Report (α × Mind)) : Report (α × Services) := do
  let (a, mind) ← r
  pure (a, { s with mind })

def withSessions {α : Type} (s : Services) (r : Report (α × Sessions)) :
    Report (α × Services) := do
  let (a, sessions) ← r
  pure (a, { s with sessions })

def load (s : Services) : Report (Except Failure Mind.Bundle × Services) :=
  s.withMind (s.mind.load s.tree)

def process (s : Services) : Report (Except Failure Nat × Services) :=
  s.withMind (s.mind.process s.tree)

def reloadConfig (s : Services) : Report (Except Failure Bool × Services) :=
  s.withMind (s.mind.reload s.tree)

def notify (s : Services) (source : String) : Services :=
  { s with mind := s.mind.notify source }

def poll (s : Services) : Except Failure Bool × Services :=
  let (changed, mind) := s.mind.poll s.tree
  (changed, { s with mind })

def reset (s : Services) : Report Services := do
  let mind ← s.mind.reset
  pure { s with mind }

/-- The document of the store. -/
def document (s : Services) : Report (Except Failure (Option Config.Document) × Services) := do
  let (r, store) ← s.mind.store.get s.tree
  pure (r, { s with mind := { s.mind with store } })

/-- Reads the document again for the store alone. -/
def reloadStore (s : Services) : Report (Except Failure (Option Config.Document) × Services) := do
  let (r, store) ← s.mind.store.load s.tree
  pure (r, { s with mind := { s.mind with store } })

def compile (s : Services) (id : String) (config : Value) :
    Report (Except Failure DecisionFunction × Services) := do
  let (r, compiler) ← s.mind.compiler.compile id config
  pure (r, { s with mind := { s.mind with compiler } })

def register (s : Services) (id : String) (p : Compiler.Proposal) :
    Report (Except Failure Template × Services) := do
  let (r, compiler) ← s.mind.compiler.register id p
  pure (r, { s with mind := { s.mind with compiler } })

/-- The gate uses the functions of the bundle, and the compiler for all others. -/
def gate (s : Services) : Gate :=
  { compiler := s.mind.compiler, validator := s.validator
    vetoEnabled := ((s.mind.validationSettings.get? "enable_veto").getD (.bool true)).isTruthy
    prepared := fun id => s.mind.bundle.bind fun b => b.function? id }

def execute (s : Services) (d : Gate.Definition) (context : Value) :
    Report (Except Failure Gate.Verdict × Services) := do
  let (r, g) ← s.gate.execute d context
  pure (r, { s with mind := { s.mind with compiler := g.compiler }, validator := g.validator })

/-- The session of an id. A new one needs the mind, which is loaded for it. -/
def session (s : Services) (id : String) : Report (Except Failure Session × Services) :=
  match s.sessions.live.lookup id with
  | some session =>
    pure (.ok (session.touch s.now), { s with sessions := s.sessions.touch id s.now })
  | none => do
    let (loaded, s) ← if s.mind.isLoaded then pure (.ok (), s) else do
      let (r, s) ← s.load
      pure (r.map fun _ => (), s)
    match loaded with
    | .error f => pure (.error f, s)
    | .ok _ => do
      let (session, sessions) ← s.sessions.create id s.now
      pure (.ok session, { s with sessions })

def endSession (s : Services) (id : String) : Report (Bool × Services) :=
  s.withSessions (s.sessions.finish id)

def cleanUp (s : Services) (now : Instant) : Report (Nat × Services) :=
  s.withSessions (s.sessions.cleanUp now)

def sessionStats (s : Services) : Entries :=
  Entries.ofNames
    [("active_sessions", .int s.sessions.live.length),
     ("shared_mind_loaded", .bool s.mind.isLoaded),
     ("ttl_hours", .float s.sessions.ttl.hours)]

/-- Ends all sessions and drops what the mind holds. -/
def destroyAll (s : Services) : Report Services :=
  { s with sessions := { s.sessions with live := [] } }.reset

/-- The mind takes no changes any more, and the watcher is stopped. -/
def shutDown (s : Services) : Report Services := do
  let mind := s.mind.close
  let store ← mind.store.unwatch
  pure { s with mind := { mind with store } }

end Services

end DecisionGate
