import DecisionGate.Config.Audience
import DecisionGate.Config.Resolution
import DecisionGate.Heuristic.Compiler
import DecisionGate.Mind.Artifact

/-!
The mind: a configuration, the artifacts and the decision functions compiled from that
configuration, published together as one bundle. A bundle never changes; a reload publishes another
one, or leaves everything as it is.
-/
namespace DecisionGate

namespace Mind

/-- What a session reads, all of it from one moment. -/
structure Bundle where
  serial : Nat
  artifacts : List (Artifact × Value)
  functions : List (Builtin × DecisionFunction)
  config : Entries
  source : Config.Source

/-- The function of a heuristic. -/
def Bundle.function? (b : Bundle) (id : String) : Option DecisionFunction :=
  (b.functions.map Prod.snd).find? fun f => f.id = id

def Bundle.artifact? (b : Bundle) (key : String) : Option Value :=
  (b.artifacts.find? fun p => p.1.key = key).map Prod.snd

/-- Who is told of a change of the configuration. -/
inductive Subscriber where
  | mind
  deriving DecidableEq, Repr

/-- The rules that an agent gets for its tasks. -/
def taskRules : Value :=
  Value.ofNames
    [("anti_patterns", Value.ofTexts
      ["multiple_assignees_single_task", "missing_time_estimate", "vague_acceptance_criteria",
       "lack_of_documentation"])]

/-- The rules for what a task is made of. -/
def anatomyRules : Value :=
  Value.ofNames
    [("required_fields", Value.ofTexts
      ["task_name", "status", "responsible_executor", "execution_type", "estimated_time", "input",
       "output", "action_items", "acceptance_criteria"]),
     ("executor_types", Value.ofTexts ["Humano", "Agente", "Clone"]),
     ("execution_types", Value.ofTexts ["100% Humano", "Híbrido", "100% Agente"]),
     ("rules", Value.ofTexts
      ["one_task_one_executor", "must_have_time_estimate", "clear_input_output",
       "actionable_items", "measurable_criteria"])]

def component : String := "mind_loader"

end Mind

open Mind

/-- The store, the compiler and the shelf belong to the services as a whole; the mind is what uses
them together. -/
structure Mind where
  store : Config.Store Subscriber
  compiler : Compiler := {}
  shelf : Shelf
  environment : Config.Environment := []
  bundle : Option Bundle := none
  /-- How many bundles were published; the number of the next one. -/
  published : Nat := 0

namespace Mind

/-- A mind that waits for changes of the configuration. -/
def start (m : Mind) (tree : Files.Tree) : Report (Except Failure Unit × Mind) := do
  let (r, store) ← m.store.watch .mind tree
  pure (r, { m with store })

def isLoaded (m : Mind) : Bool := m.bundle.isSome

def source? (m : Mind) : Option Config.Source := m.bundle.map Bundle.source

/-- The bundle, which there has to be. -/
def current (m : Mind) : Except Failure Bundle :=
  match m.bundle with
  | some b => .ok b
  | none => .error (.mindNotLoaded "use")

/-- The settings for validation: those of the bundle over the defaults. -/
def validationSettings (m : Mind) : Entries :=
  match (m.bundle.bind fun b => b.config.get? "validation") with
  | some (.map es) => Config.defaultValidation.update es
  | _ => Config.defaultValidation

/-- Publishes a bundle in the place of the last one. It holds the whole of its configuration, which
has to come to an end for that. -/
def publish (m : Mind) (artifacts : List (Artifact × Value))
    (functions : List (Builtin × DecisionFunction)) (config : Entries) (source : Config.Source) :
    Except Failure Mind :=
  if (Value.map config).isEndless false then .error .tooDeep
  else
    let b : Bundle := { serial := m.published, artifacts, functions, config, source }
    .ok { m with bundle := some b, published := m.published + 1 }

/-- Compiles heuristics from their sections, up to the first that fails. -/
def compileEach (config : Entries) (c : Compiler) :
    List Builtin → Report (Except Failure (List (Builtin × DecisionFunction)) × Compiler)
  | [] => pure (.ok [], c)
  | b :: rest => do
    let (f, c) ← c.compile b.id (.map (Config.sectionOf config b.id))
    match f with
    | .error e => pure (.error e, c)
    | .ok f => do
      let (more, c) ← compileEach config c rest
      pure (more.map fun found => (b, f) :: found, c)

def compileAll (m : Mind) (config : Entries) :
    Report (Except Failure (List (Builtin × DecisionFunction)) × Mind) := do
  let (r, compiler) ← compileEach config m.compiler Builtin.all
  pure (r, { m with compiler })

/-- The configuration in effect. -/
def resolve (m : Mind) (tree : Files.Tree) :
    Report (Except Failure (Entries × Config.Source) × Mind) := do
  let (document, store) ← m.store.get tree
  let m := { m with store }
  match document with
  | .error f => pure (.error f, m)
  | .ok document => do
    let file := match document with
      | some d => Value.map d.entries
      | none => .null
    let r ← Config.resolve file m.environment
    pure (liftFault r, m)

/-- What a bundle is made of besides its configuration. -/
def assemble (m : Mind) (config : Entries) (tree : Files.Tree) :
    Report (Except Failure
      (List (Artifact × Value) × List (Builtin × DecisionFunction)) × Mind) := do
  let (artifacts, shelf) ← m.shelf.loadAll tree
  let m := { m with shelf }
  match artifacts with
  | .error f => pure (.error f, m)
  | .ok artifacts => do
    let (functions, m) ← m.compileAll config
    pure (functions.map fun functions => (artifacts, functions), m)

/-- Loads the mind once. Until all of it is there nothing is published. -/
def load (m : Mind) (tree : Files.Tree) : Report (Except Failure Bundle × Mind) :=
  match m.bundle with
  | some b => do
    note (.hit component)
    pure (.ok b, m)
  | none => do
    note (.started "mind_load")
    noteInfo component "mind_loading_started"
    let (resolved, m) ← m.resolve tree
    match resolved with
    | .error f => pure (.error f, m)
    | .ok (config, source) => do
      let (parts, m) ← m.assemble config tree
      match parts with
      | .error f =>
        if f.stopsLoading then do
          note (.ended "mind_load")
          noteError component "mind_loading_failed"
          pure (.error (.mindLoad f), m)
        else pure (.error f, m)
      | .ok (artifacts, functions) =>
        match m.publish artifacts functions config source with
        | .error f => pure (.error f, m)
        | .ok m => do
          note (.ended "mind_load")
          noteInfo component "mind_loaded"
          pure (m.current, m)

/-- The configuration that a document becomes in an environment. -/
def candidate (document : Entries) (env : Config.Environment) :
    Except Fault (Entries × Config.Source) := do
  match ← Config.overlay (.map document) env with
  | some es => .ok (es, .environmentAndFile)
  | none => .ok (document, .file)

/-- Compiles everything anew from an accepted configuration, and publishes it with the artifacts of
the bundle before. -/
def recompile (m : Mind) (current : Bundle) (config : Entries) (source : Config.Source) :
    Report (Bool × Mind) := do
  let (r, compiler) ← m.compiler.invalidate (.map config) true
  let m := { m with compiler }
  match r with
  | .error _ => pure (false, m)
  | .ok _ => do
    let (functions, m) ← m.compileAll config
    match functions with
    | .error f =>
      if f.isDomain then do
        noteError component "hot_reload_recompile_failed"
        pure (true, m)
      else pure (false, m)
    | .ok functions =>
      match m.publish current.artifacts functions config source with
      | .error _ => pure (false, m)
      | .ok m => do
        noteInfo component "config_reloaded"
        pure (true, m)

/-- Takes a change of the document. A configuration that does not pass the checks changes nothing;
without a bundle there is nothing to renew. -/
def renew (m : Mind) (c : Config.Change) : Report (Bool × Mind) :=
  match candidate c.new.entries m.environment with
  | .error _ => pure (false, m)
  | .ok (config, source) =>
    match Config.check (.map config) with
    | .error _ => pure (false, m)
    | .ok (p :: problems) => do
      note (.fallback "config_reload_validation_failed" (Entries.ofNames
        [("component", .str component), ("errors_count", .int (p :: problems).length)]))
      noteWarning component "config_reload_validation_failed"
      pure (true, m)
    | .ok [] =>
      match m.bundle with
      | none => do
        noteInfo component "config_reloaded_before_load"
        pure (true, m)
      | some current => m.recompile current config source

def audience : Config.Audience Subscriber Mind where
  store := Mind.store
  withStore m store := { m with store }
  react _ c m := m.renew c

def notify (m : Mind) (source : String) : Mind := { m with store := m.store.notify source }

def poll (m : Mind) (tree : Files.Tree) : Except Failure Bool × Mind :=
  let (changed, store) := m.store.poll tree
  (changed, { m with store })

/-- Takes every queued signal; the mind adds none. -/
def process (m : Mind) (tree : Files.Tree) : Report (Except Failure Nat × Mind) :=
  audience.process tree 0 m

/-- Asks for the file to be read again, and tells whether it was. -/
def reload (m : Mind) (tree : Files.Tree) : Report (Except Failure Bool × Mind) := do
  let (n, m) ← (m.notify "reload_request").process tree
  pure (n.map fun n => 0 < n, m)

/-- What an agent gets: the artifacts, the functions and the rules. -/
structure Attachment where
  artifacts : List (Artifact × Value)
  functions : List (Builtin × DecisionFunction)
  rules : Entries

def attachment (m : Mind) : Except Failure Attachment :=
  match m.bundle with
  | none => .error (.mindNotLoaded "applying to agent")
  | some b => .ok
    { artifacts := b.artifacts
      functions := b.functions
      rules := Entries.ofNames [("task_management", taskRules), ("task_anatomy", anatomyRules)] }

/-- Drops the bundle, the artifacts and the compiled functions. -/
def reset (m : Mind) : Report Mind := do
  let (_, compiler) ← m.compiler.clear
  pure { m with bundle := none, shelf := m.shelf.clear, compiler }

/-- Changes of the configuration are not taken any more. -/
def close (m : Mind) : Mind := { m with store := (m.store.unsubscribe .mind).2 }

end Mind

end DecisionGate
