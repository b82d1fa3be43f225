import DecisionGate.Heuristic.Template
import DecisionGate.Telemetry.Note

/-!
The compiler keeps every function that it made under its id, and hands out the same one until the
cache is cleared, whatever section is passed in between. Every function carries a serial number, so
that two of them can be told apart.
-/
namespace DecisionGate

/-- A compiled function with the template and the section that it came from. -/
structure DecisionFunction where
  serial : Nat
  id : String
  name : String
  domain : String
  kind : Kind
  config : Value
  behaviour : Behaviour

def DecisionFunction.call (f : DecisionFunction) (context : Value) : Except Failure Answer :=
  f.behaviour.run context

def DecisionFunction.toEntries (f : DecisionFunction) : List (String × Value) :=
  [("id", .str f.id), ("name", .str f.name), ("domain", .str f.domain),
   ("kind", .str f.kind.name), ("config", f.config)]

structure Compiler where
  compiled : List (String × DecisionFunction) := []
  custom : List (String × Template) := []
  hits : Nat := 0
  misses : Nat := 0
  created : Nat := 0

/-- A present name keeps its place. -/
def putNamed {α : Type} (name : String) (a : α) : List (String × α) → List (String × α)
  | [] => [(name, a)]
  | (n, b) :: rest => if n = name then (name, a) :: rest else (n, b) :: putNamed name a rest

namespace Compiler

def component : String := "heuristic_compiler"

def cached? (c : Compiler) (id : String) : Option DecisionFunction := c.compiled.lookup id

/-- Built-in templates come first, so none can be replaced. -/
def template? (c : Compiler) (id : String) : Option Template :=
  match Builtin.ofId? id with
  | some b => some b.template
  | none => c.custom.lookup id

def isCompiled (c : Compiler) (id : String) : Bool := (c.cached? id).isSome

/-- Nothing counts as the empty section. -/
def sectionValue (config : Value) : Value := if config.isTruthy then config else .map []

/-- The function that a template becomes now. -/
def newFunction (c : Compiler) (t : Template) (config : Value) (b : Behaviour) :
    DecisionFunction :=
  { serial := c.created, id := t.id, name := t.name, domain := t.domain, kind := t.kind,
    config, behaviour := b }

def compile (c : Compiler) (id : String) (config : Value) :
    Report (Except Failure DecisionFunction × Compiler) :=
  match c.cached? id with
  | some f => do
    note (.hit component)
    pure (.ok f, { c with hits := c.hits + 1 })
  | none => do
    note (.miss component)
    let c := { c with misses := c.misses + 1 }
    match c.template? id with
    | none => do
      noteError component "compilation_failed"
      pure (.error (.unknownHeuristic id), c)
    | some t => do
      let config := sectionValue config
      note (.started "heuristic_compile")
      noteInfo component "compilation_started"
      match t.compile config with
      | .error e => do
        note (.ended "heuristic_compile")
        noteError component "compilation_failed"
        pure (.error e, c)
      | .ok b => do
        let f := c.newFunction t config b
        note (.ended "heuristic_compile")
        noteInfo component "compilation_completed"
        pure (.ok f, { c with compiled := c.compiled ++ [(id, f)], created := c.created + 1 })

/-- The function of each id, none for those that cannot be compiled. -/
abbrev Compiled := List (String × Option DecisionFunction)

def compileEach (c : Compiler) (done : Compiled) :
    List (String × Value) → Report (Compiled × Compiler)
  | [] => pure (done, c)
  | (id, config) :: rest => do
    let (r, c) ← c.compile id config
    match r with
    | .ok f => c.compileEach (putNamed id (some f) done) rest
    | .error _ => do
      noteWarning component "compile_multiple_entry_failed"
      c.compileEach (putNamed id none done) rest

def compileMultiple (c : Compiler) (items : List (String × Value)) :
    Report (Compiled × Compiler) :=
  c.compileEach [] items

/-- What is offered for registration; the name and the domain can be any value. -/
structure Proposal where
  name : Value
  domain : Value
  action : Option CustomAction

def proposed? (id : String) (p : Proposal) : Option Template :=
  match p.action with
  | some action =>
    if p.name.isTruthy && p.domain.isTruthy then
      some { id, name := p.name.text, domain := p.domain.text, source := .custom action }
    else none
  | none => none

def register (c : Compiler) (id : String) (p : Proposal) :
    Report (Except Failure Template × Compiler) :=
  if (Builtin.ofId? id).isSome then
    pure (.error (.rejectedTemplate (.overBuiltin id)), c)
  else
    match proposed? id p with
    | none => pure (.error (.rejectedTemplate .malformed), c)
    | some t => do
      noteInfo component "custom_template_registered"
      pure (.ok t, { c with custom := putNamed id t c.custom })

def available (c : Compiler) : List String := Builtin.all.map Builtin.id ++ c.custom.map Prod.fst

/-- What is known of an id, and whether it is compiled. -/
def metadata? (c : Compiler) (id : String) : Option (Template × Bool) :=
  (c.template? id).map fun t => (t, c.isCompiled id)

/-- The template of an id and whether it is compiled, as entries. -/
def describe? (c : Compiler) (id : String) : Option (List (String × Value)) :=
  (c.metadata? id).map fun (t, compiled) => t.toEntries ++ [("compiled", .bool compiled)]

def clear (c : Compiler) : Report (Nat × Compiler) := do
  noteInfo component "cache_cleared"
  pure (c.compiled.length, { c with compiled := [] })

/-- The sections of the built-in heuristics in a configuration. -/
def builtinSections (config : Value) : Except Fault (List (String × Value)) :=
  Builtin.all.mapM fun b => do
    let es ← Config.sectionOfValue config b.id
    .ok (b.id, .map es)

/-- Clears the cache and, if asked to and there is a configuration, compiles the built-ins again. -/
def invalidate (c : Compiler) (config : Value) (recompile : Bool) :
    Report (Except Failure (Option Compiled) × Compiler) := do
  let (_, c) ← c.clear
  if !recompile || !config.isTruthy then pure (.ok none, c)
  else
    match builtinSections config with
    | .error f => pure (.error (.fault f), c)
    | .ok sections => do
      let (done, c) ← c.compileMultiple sections
      noteInfo component "recompilation_completed"
      pure (.ok (some done), c)

def stats (c : Compiler) : Value :=
  Value.ofNames
    [("predefined_heuristics", .int Builtin.all.length),
     ("custom_heuristics", .int c.custom.length),
     ("compiled_count", .int c.compiled.length),
     ("available_total", .int c.available.length),
     ("hits", .int c.hits), ("misses", .int c.misses),
     ("hit_rate", Telemetry.rate c.hits c.misses),
     ("compiled_heuristics", Value.ofTexts (c.compiled.map Prod.fst))]

end Compiler

end DecisionGate
