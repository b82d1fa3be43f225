import DecisionGate.Mind.Attachment
import DecisionGate.Services
import DecisionGate.Web.Request
import DecisionGate.Web.Route

/-!
The services behind requests. Every request is one step: it has a response, or a failure that is
passed on, and leaves the services in a state of their own.
-/
namespace DecisionGate.Web

/-- The outcome of a request and the services after it. -/
abbrev Outcome := Report (Except Refusal Response × Services)

def heuristicEntry (c : Compiler) (id : String) : Option Value :=
  (c.metadata? id).map fun (t, compiled) =>
    Value.ofNames (t.toEntries ++
      [("custom", .bool (t.kind.name == Kind.custom.name)), ("compiled", .bool compiled)])

def listHeuristics (s : Services) : Response :=
  .ok (.list (s.mind.compiler.available.filterMap (heuristicEntry s.mind.compiler)))

def showHeuristic (s : Services) (id : String) : Response :=
  match s.mind.compiler.describe? id with
  | some es => .ofEntries es
  | none => .notFound s!"Heuristic '{id}' not found"

/-- The function of the bundle, for which the mind is loaded; without one, the compiler's own. -/
def functionOf (s : Services) (id : String) :
    Report (Except Refusal DecisionFunction × Services) := do
  let (bundle, s) ← match s.mind.bundle with
    | some b => pure (.ok b, s)
    | none => s.load
  match bundle with
  | .error f => pure (.error (.ofFailure f), s)
  | .ok b =>
    match b.function? id with
    | some f => pure (.ok f, s)
    | none => do
      let (f, s) ← s.compile id .null
      match f with
      | .error (.unknownHeuristic id) =>
        pure (.error (.response (.notFound (Failure.unknownHeuristic id).message)), s)
      | .error f => pure (.error (.failure f), s)
      | .ok f => pure (.ok f, s)

/-- The context of a call. A strict one has to pass the schema of a built-in heuristic. -/
def callContext (id : String) (q : Evaluation) : Except Refusal Value :=
  match q.strict, Builtin.ofId? id with
  | true, some b =>
    match StrictInput.ofContext b (.map q.context) with
    | .ok es => .ok (.map es)
    | .error ps => .error (.response (.invalid doubleBound ps))
  | _, _ => .ok (.map q.context)

def isName : Key → Bool
  | .str _ => true
  | _ => false

/-- A mapping with names for keys can be answered, and nothing else. -/
def namedEntries? (v : Value) : Option Entries :=
  match v with
  | .map es => if es.all fun e => isName e.1 then some es else none
  | _ => none

def answerCall (f : DecisionFunction) (context : Value) : Except Refusal Response :=
  match f.call context with
  | .error (.input p) =>
    .error (.response (.detail 422 (Value.ofNames
      [("field", Value.ofText? p.field?), ("message", .str (Failure.input p).message)])))
  | .error f => .error (.failure f)
  | .ok a =>
    match namedEntries? a.toJson with
    | some es => .ok (.ok (.map es))
    | none => .error (.failure .response)

def evaluate (s : Services) (id body : String) : Outcome :=
  match bodyOf Evaluation.check body with
  | .error r => pure (.error r, s)
  | .ok q => do
    let (f, s) ← functionOf s id
    pure (f.bind fun f => (callContext id q).bind (answerCall f), s)

/-- A setting for validation; null when there is none. -/
def setting (s : Services) (name : String) : Value :=
  (Entries.get? s.mind.validationSettings name).getD .null

/-- What the request leaves open is taken from the settings in effect. -/
def validate (s : Services) (body : String) : Outcome :=
  match bodyOf Validation.check body with
  | .error r => pure (.error r, s)
  | .ok q => do
    let minimum := (q.minimum.map .float).getD (setting s "minimum_score")
    let strict := (q.strict.map .bool).getD (setting s "strict_mode")
    let (result, validator) ← s.validator.validate q.content q.levels minimum strict
    let s := { s with validator }
    match result with
    | .error (.badValue message) => pure (.error (.response (.detail 422 (.str message))), s)
    | .error f => pure (.error (.failure f), s)
    | .ok r =>
      let report := if q.report then [("report", Value.str r.report)] else []
      pure (.ok (.ofEntries (r.toEntries ++ report)), s)

def showHistory (s : Services) (limit : Int) : Response :=
  let entry (e : Belief.HistoryEntry) : Value :=
    Value.ofNames [("content", .str e.content), ("result", Value.ofNames e.result.toEntries)]
  .ofEntries
    [("total", .int s.validator.history.length),
     ("entries", .list ((s.validator.recent limit).map entry))]

/-- Of a verdict only what was found in the context is of free form. -/
def verdictResponse (v : Gate.Verdict) : Response :=
  let criteria := v.criteria.map fun c => { c with actual := plain c.actual }
  { status := 200, body := Value.ofNames { v with criteria }.toEntries, around := some 3 }

def executeGate (s : Services) (body : String) : Outcome :=
  match bodyOf Checkpoint.check body with
  | .error r => pure (.error r, s)
  | .ok q => do
    let (v, s) ← s.execute (.value ((q.phase.map .map).getD .null)) (.map q.context)
    pure ((v.mapError .failure).map verdictResponse, s)

def showMind (s : Services) : Response :=
  .ofEntries (s.mind.metadata ++ [("sessions", .map s.sessionStats)])

def loadMind (s : Services) : Outcome := do
  let (r, s) ← s.load
  pure ((refused r).map fun _ => .ofEntries s.mind.metadata, s)

/-- The keys of a mapping that are no names. -/
def foreignKeys (name : String) (es : Entries) : List Schema.Problem :=
  (es.filter fun e => !isName e.1).map fun (k, _) =>
    let place := match k.integer? with
      | some i => Format.integer i
      | none => k.toValue.text
    ⟨.text, [.name name, .name place, .name "[key]"], k.toValue⟩

/-- The configuration of the bundle, or else the document as it was read. -/
def activeConfig (s : Services) : Report (Except Failure (Option Entries) × Services) :=
  match s.mind.bundle with
  | some b => pure (.ok (some b.config), s)
  | none => do
    let (d, s) ← s.document
    pure (d.map fun d => d.map Config.Document.entries, s)

def configResponse (m : Mind) (config : Option Entries) : Except Refusal Response :=
  let validation := m.validationSettings
  match foreignKeys "config" (config.getD []) ++ foreignKeys "validation" validation with
  | [] => .ok
      { Response.ofEntries
          [("source", m.sourceValue), ("config", (config.map .map).getD .null),
           ("validation", .map validation)] with around := some 2 }
  | problems => .error (.failure (.schema "Configuration" problems))

def showConfig (s : Services) : Outcome := do
  let (config, s) ← activeConfig s
  pure ((config.mapError .failure).bind (configResponse s.mind), s)

def reloadConfig (s : Services) : Outcome := do
  let (r, s) ← s.reloadConfig
  pure ((r.mapError .failure).map fun done =>
    .ofEntries [("reloaded", .bool done), ("config_source", s.mind.sourceValue)], s)

/-- How many fallbacks are shown. -/
def shownFallbacks : Nat := 10

def showTelemetry (t : Telemetry) : Response :=
  let recent := (Telemetry.lastOf shownFallbacks t.fallbacks).map Telemetry.Fallback.toValue
  .ok (.map ((t.summary.entries?.getD []).set "recent_fallbacks" (.list recent)))

def openSession (s : Services) (id : String) : Outcome := do
  let (r, s) ← s.session id
  pure ((refused r).map fun x => .ofEntries (x.toEntries id s.mind.isLoaded), s)

def endSession (s : Services) (id : String) : Outcome := do
  let (found, s) ← s.endSession id
  let response :=
    if found then .ofEntries [("session_id", .str id), ("ended", .bool true)]
    else .notFound s!"Session '{id}' not found"
  pure (.ok response, s)

def welcome : Response :=
  .ofEntries
    [("name", .str "Hybrid-Ops Mind Service"), ("version", .str "0.1.0"),
     ("endpoints", Value.ofNames
      [("heuristics", .str "/heuristics - List, inspect and evaluate decision functions"),
       ("axioms", .str "/axioms/validate - Score content against the axiom levels"),
       ("gates", .str "/gates/execute - Run a workflow checkpoint"),
       ("mind", .str "/mind - Shared mind state"),
       ("config", .str "/config, /config/reload - Active configuration and hot reload"),
       ("sessions", .str "/sessions/\x7bid\x7d - Open or end a session")])]

/-- What the service is, for programs that look for its routes. -/
def description : Response :=
  .ofEntries
    [("openapi", .str "3.1.0"),
     ("info", Value.ofNames
      [("title", .str "Hybrid-Ops Mind Service"),
       ("description", .str "Heuristic compilation, axiom validation and workflow checkpoints"),
       ("version", .str "0.1.0")])]

def showHealth (s : Services) : Response :=
  .ofEntries
    [("status", .str "healthy"), ("mind_loaded", .bool s.mind.isLoaded),
     ("config_loaded", .bool s.mind.store.document.isSome),
     ("watching", .bool s.mind.store.watching)]

/-- Takes a route. The telemetry can be shown, and is written to by its owner alone. -/
def Route.take (r : Route) (t : Target) (body : String) (telemetry : Telemetry) (s : Services) :
    Outcome :=
  match r with
  | .page p => pure (.ok (.ofPage p), s)
  | .description => pure (.ok Web.description, s)
  | .heuristics => pure (.ok (listHeuristics s), s)
  | .compilerStats => pure (.ok (.ok s.mind.compiler.stats), s)
  | .heuristic id => pure (.ok (showHeuristic s id), s)
  | .evaluate id => Web.evaluate s id body
  | .validate => Web.validate s body
  | .history => pure ((limitOf t).map (showHistory s), s)
  | .gate => executeGate s body
  | .mind => pure (.ok (showMind s), s)
  | .loadMind => Web.loadMind s
  | .config => showConfig s
  | .reloadConfig => Web.reloadConfig s
  | .telemetry => pure (.ok (showTelemetry telemetry), s)
  | .openSession id => Web.openSession s id
  | .endSession id => Web.endSession s id
  | .welcome => pure (.ok Web.welcome, s)
  | .health => pure (.ok (showHealth s), s)

structure Application where
  services : Services
  telemetry : Telemetry := {}

namespace Application

def respond (a : Application) (q : Request) : Except Failure Response × Application :=
  let t := Target.ofText q.target
  match t.find q.method with
  | .nowhere => (.ok (.notFound "Not Found"), a)
  | .elsewhere => (.ok .elsewhere, a)
  | .otherMethod => (.ok (.detail 405 (.str "Method Not Allowed")), a)
  | .route r =>
    let outcome := r.take t q.body a.telemetry a.services
    let (response, services) := outcome.value
    (settle response, { services, telemetry := a.telemetry.writeAll outcome.notes })

end Application

end DecisionGate.Web
