import DecisionGate.Files.Edit
import DecisionGate.Proofs.Load
import DecisionGate.Proofs.Queue
import DecisionGate.Services

/-!
# Runs of the services

A run is a list of operations from freshly built services. Edits of the files stand among the
operations, so that whatever happens to the configuration document is part of the run. This module
says what a single operation does to the mind; the invariants of the other modules follow from it.
-/
namespace DecisionGate.Services

/-- Everything that can be asked of the services, and what can happen around them. -/
inductive Operation where
  | load
  | reset
  | reloadConfig
  | process
  | poll
  | notify (source : String)
  | document
  | reloadStore
  | compile (id : String) (config : Value)
  | invalidate (config : Value) (recompile : Bool)
  | register (id : String) (p : Compiler.Proposal)
  | execute (d : Gate.Definition) (context : Value)
  | validate (content levels minimum strict : Value)
  | session (id : String)
  | endSession (id : String)
  | cleanUp (now : Instant)
  | destroyAll
  | close
  | shutDown
  | setClock (now : Instant)
  | edit (e : Files.Edit)

/-- The services after an operation, whether or not it failed. -/
def step (s : Services) : Operation → Services
  | .load => s.load.value.2
  | .reset => s.reset.value
  | .reloadConfig => s.reloadConfig.value.2
  | .process => s.process.value.2
  | .poll => s.poll.2
  | .notify source => s.notify source
  | .document => s.document.value.2
  | .reloadStore => s.reloadStore.value.2
  | .compile id config => (s.compile id config).value.2
  | .invalidate config recompile =>
    let compiler := (s.mind.compiler.invalidate config recompile).value.2
    { s with mind := { s.mind with compiler } }
  | .register id p => (s.register id p).value.2
  | .execute d context => (s.execute d context).value.2
  | .validate content levels minimum strict =>
    { s with validator := (s.validator.validate content levels minimum strict).value.2 }
  | .session id => (s.session id).value.2
  | .endSession id => (s.endSession id).value.2
  | .cleanUp now => (s.cleanUp now).value.2
  | .destroyAll => s.destroyAll.value
  | .close => { s with mind := s.mind.close }
  | .shutDown => s.shutDown.value
  | .setClock now => { s with now }
  | .edit e => { s with tree := (e.apply s.tree).toOption.getD s.tree }

def after (s : Services) (ops : List Operation) : Services := ops.foldl step s

@[simp] theorem after_nil (s : Services) : s.after [] = s := rfl

@[simp] theorem after_append (s : Services) (ops more : List Operation) :
    s.after (ops ++ more) = (s.after ops).after more := List.foldl_append ..

@[simp] theorem after_singleton (s : Services) (op : Operation) : s.after [op] = s.step op := rfl

/-- What is built holds nothing yet and has seen the configuration document as it is. -/
theorem build_eq {settings : Settings} {tree : Files.Tree} {s : Services}
    (h : (build settings tree).value = .ok s) :
    ∃ seen, tree.fingerprint settings.configPath = .ok seen ∧
      s.tree = tree ∧ s.mind.environment = settings.environment ∧ s.mind.bundle = none ∧
      s.mind.store =
        { path := settings.configPath
          reader := settings.reader
          subscribers := [.mind]
          watching := true
          fingerprint := seen } ∧
      s.validator = { limit := settings.historyLimit } := by
  simp only [build, Mind.start, Report.value_bind, Report.value_pure, Config.Store.watch] at h
  cases hseen : tree.fingerprint settings.configPath with
  | error p => simp [hseen, Except.map] at h
  | ok seen =>
    simp only [hseen, Except.map] at h
    cases h
    exact ⟨seen, rfl, rfl, rfl, rfl, rfl, rfl⟩

/-- A session that is not live needs the mind, and one that is not loaded is loaded for it. -/
theorem session_mind (s : Services) (id : String) :
    (s.session id).value.2.mind =
      if s.sessions.live.lookup id = none ∧ s.mind.bundle = none then
        (s.mind.load s.tree).value.2
      else s.mind := by
  unfold session
  cases hl : s.sessions.live.lookup id with
  | some found => simp
  | none =>
    cases hb : s.mind.bundle with
    | some b =>
      have hloaded : s.mind.isLoaded = true := by simp [Mind.isLoaded, hb]
      simp [hloaded]
    | none =>
      have hloaded : s.mind.isLoaded = false := by simp [Mind.isLoaded, hb]
      simp only [hloaded, Bool.false_eq_true, if_false, Report.value_bind, load, withMind,
        Report.value_pure, and_self, if_true]
      cases (s.mind.load s.tree).value with
      | mk r m => cases r <;> rfl

theorem session_frame (s : Services) (id : String) :
    (s.session id).value.2.tree = s.tree ∧ (s.session id).value.2.validator = s.validator := by
  unfold session
  cases s.sessions.live.lookup id with
  | some found => exact ⟨rfl, rfl⟩
  | none =>
    cases hloaded : s.mind.isLoaded with
    | true => exact ⟨rfl, rfl⟩
    | false =>
      simp only [Bool.false_eq_true, if_false, Report.value_bind, load, withMind,
        Report.value_pure]
      cases (s.mind.load s.tree).value.1 <;> exact ⟨rfl, rfl⟩

theorem environment_step (s : Services) (op : Operation) :
    (s.step op).mind.environment = s.mind.environment := by
  cases op with
  | load => exact (s.mind.load_frame s.tree).2
  | session id =>
    simp only [step, session_mind]
    split
    · exact (s.mind.load_frame s.tree).2
    · rfl
  | reloadConfig => exact (Mind.processUpTo_sameFrame s.tree _ (s.mind.notify _)).environment
  | process => exact (Mind.processUpTo_sameFrame s.tree _ s.mind).environment
  | _ => rfl

theorem environment_after (s : Services) (ops : List Operation) :
    (s.after ops).mind.environment = s.mind.environment := by
  induction ops generalizing s with
  | nil => rfl
  | cons op ops ih => exact (ih (s.step op)).trans (s.environment_step op)

/-- The operations that drop the bundle. -/
inductive Operation.Drops : Operation → Prop
  | reset : Drops .reset
  | destroyAll : Drops .destroyAll

/-- The operations that load a mind that is not loaded. -/
inductive Operation.Loads (s : Services) : Operation → Prop
  | load : Loads s .load
  | session (id : String) : s.sessions.live.lookup id = none → Loads s (.session id)

/-- The operations that take a signal. -/
inductive Operation.Signals (s : Services) : Operation → Prop
  | process : s.mind.store.pending ≠ [] → Signals s .process
  | reloadConfig : Signals s .reloadConfig

/-- The operations that put something else in the place of the bundle: a load of a mind without
one, a signal that finds an accepted configuration with an end, and those that drop it. -/
inductive Operation.Replaces (s : Services) (op : Operation) : Prop
  | load : op.Loads s → s.mind.bundle = none → Replaces s op
  | reload (config : Entries) : op.Signals s → s.mind.isLoaded →
      s.mind.offered? s.tree = some config → (Value.map config).isEndless false = false →
      Replaces s op
  | drop : op.Drops → Replaces s op

/-- What an operation does to the bundle. -/
inductive BundleStep (s : Services) (op : Operation) : Prop
  | same : (s.step op).mind.bundle = s.mind.bundle → BundleStep s op
  | dropped : op.Drops → (s.step op).mind.bundle = none → BundleStep s op
  | loaded (b : Mind.Bundle) : op.Loads s → s.mind.bundle = none →
      (s.step op).mind.bundle = some b → Mind.Loads s.mind s.tree b → BundleStep s op
  | renewed (config : Entries) (b b' : Mind.Bundle) : op.Signals s →
      Mind.Renews s.mind (s.step op).mind s.tree config b b' → BundleStep s op

theorem bundleStep_of_loads {s : Services} {op : Operation} (hop : op.Loads s)
    (hstep : (s.step op).mind = if s.mind.bundle = none then (s.mind.load s.tree).value.2
      else s.mind) : BundleStep s op := by
  by_cases hb : s.mind.bundle = none
  · rw [if_pos hb] at hstep
    obtain ⟨-, -, hnone | ⟨b, hb', hloads⟩⟩ := Mind.load_unloaded s.tree hb
    · exact .same (by rw [hstep, hnone, hb])
    · exact .loaded b hop hb (by rw [hstep, hb']) hloads
  · rw [if_neg hb] at hstep
    exact .same (by rw [hstep])

theorem bundle_step (s : Services) (op : Operation) : BundleStep s op := by
  cases op with
  | load =>
    refine bundleStep_of_loads .load ?_
    split
    · rfl
    · next hb =>
      obtain ⟨b, hb⟩ := Option.ne_none_iff_exists'.mp hb
      exact congrArg Prod.snd (Mind.load_loaded hb)
  | session id =>
    cases hl : s.sessions.live.lookup id with
    | none => exact bundleStep_of_loads (.session id hl) (by simp [step, session_mind, hl])
    | some found => exact .same (by simp [step, session_mind, hl])
  | reset => exact .dropped .reset rfl
  | destroyAll => exact .dropped .destroyAll rfl
  | process =>
    rcases Mind.processUpTo_bundle s.tree (s.mind.store.pending.length + 0) s.mind with
      hsame | ⟨hp, config, b, b', hrenews⟩
    · exact .same hsame
    · exact .renewed config b b' (.process hp) hrenews
  | reloadConfig =>
    let asked := s.mind.notify "reload_request"
    rcases Mind.processUpTo_bundle s.tree (asked.store.pending.length + 0) asked with
      hsame | ⟨-, config, b, b', hrenews⟩
    · exact .same hsame
    · exact .renewed config b b' .reloadConfig { hrenews with }
  | _ => exact .same rfl

/-- Nothing else replaces the bundle. -/
theorem replaces_of_bundle_ne {s : Services} {op : Operation}
    (h : (s.step op).mind.bundle ≠ s.mind.bundle) : op.Replaces s := by
  cases s.bundle_step op with
  | same hsame => exact absurd hsame h
  | dropped hop => exact .drop hop
  | loaded b hop hb => exact .load hop hb
  | renewed config b b' hop hrenews =>
    refine .reload config hop ?_ hrenews.offered hrenews.ends
    simp [Mind.isLoaded, hrenews.before]

/-- A mind stays loaded unless its bundle is dropped. -/
theorem isLoaded_step {s : Services} {op : Operation} (hop : ¬ op.Drops)
    (h : s.mind.isLoaded = true) : (s.step op).mind.isLoaded = true := by
  cases s.bundle_step op with
  | same hsame => rwa [Mind.isLoaded, hsame]
  | dropped hdrops => exact absurd hdrops hop
  | loaded b _ _ hb => rw [Mind.isLoaded, hb, Option.isSome_some]
  | renewed config b b' _ hrenews => rw [Mind.isLoaded, hrenews.after, Option.isSome_some]

/-- A configuration without an end is never published. -/
theorem ends_step {s : Services} (op : Operation)
    (h : ∀ b, s.mind.bundle = some b → (Value.map b.config).isEndless false = false) :
    ∀ b, (s.step op).mind.bundle = some b → (Value.map b.config).isEndless false = false := by
  intro b hb
  cases s.bundle_step op with
  | same hsame => exact h b (hsame.symm.trans hb)
  | dropped _ hnone => exact absurd (hnone.symm.trans hb) (by simp)
  | loaded b' _ _ hb' hloads =>
    obtain rfl : b' = b := Option.some.inj (hb'.symm.trans hb)
    exact hloads.ends
  | renewed config a b' _ hrenews =>
    obtain rfl : b' = b := Option.some.inj (hrenews.after.symm.trans hb)
    rw [hrenews.takes.config_eq]
    exact hrenews.ends

theorem ends_after {settings : Settings} {tree : Files.Tree} {s : Services}
    (hs : (build settings tree).value = .ok s) (ops : List Operation) :
    ∀ b, (s.after ops).mind.bundle = some b → (Value.map b.config).isEndless false = false := by
  have hrun : ∀ s : Services,
      (∀ b, s.mind.bundle = some b → (Value.map b.config).isEndless false = false) →
      ∀ b, (s.after ops).mind.bundle = some b → (Value.map b.config).isEndless false = false := by
    induction ops with
    | nil => exact fun _ h => h
    | cons op ops ih => exact fun s h => ih (s.step op) (ends_step op h)
  obtain ⟨-, -, -, -, hnone, -⟩ := build_eq hs
  exact hrun s fun b hb => absurd (hnone.symm.trans hb) (by simp)

/-- Nothing but a mind whose artifacts are all empty. -/
def bareTree : Files.Tree where
  entries :=
    [(["minds"], .directory (.counted 0)), (["minds", "m"], .directory (.counted 0)),
     (["minds", "m", "artifacts"], .directory (.counted 0)),
     (["minds", "m", "artifacts", "meta_axioms.md"], .file [] (.counted 0)),
     (["minds", "m", "artifacts", "decision_heuristics.md"], .file [] (.counted 0)),
     (["minds", "m", "sources"], .directory (.counted 0)),
     (["minds", "m", "sources", "task_management_playbook.md"], .file [] (.counted 0)),
     (["minds", "m", "system_prompts"], .directory (.counted 0)),
     (["minds", "m", "system_prompts", "system_prompt.txt"], .file [] (.counted 0))]

def bareSettings (environment : Config.Environment) : Settings where
  configPath := .ofText "heuristics.yaml"
  minds := .ofText "minds"
  legacyMinds := none
  mindName := "m"
  environment := environment
  ttl := 0

/-- The services after a run over the small installation, unless they could not be built. -/
def bareRun (environment : Config.Environment) (ops : List Operation) : Option Services :=
  (build (bareSettings environment) bareTree).value.toOption.map fun s => s.after ops

/-- Variables that make a configuration of every document with a version. -/
def filling : Config.Environment :=
  [("HEURISTIC_BS001_END_STATE_WEIGHT", "1"), ("HEURISTIC_BS001_CONFIDENCE_THRESHOLD", "1"),
   ("HEURISTIC_PA001_SKILL_WEIGHT", "1"), ("HEURISTIC_PA001_VETO_THRESHOLD", "1"),
   ("HEURISTIC_PM001_FREQUENCY_WEIGHT", "1"), ("HEURISTIC_PM001_AUTOMATE_THRESHOLD", "1")]

/-- A document with a list that is its own item. -/
def knot : String := "version: v\na: &a [*a]\n"

/-- An edit that writes the configuration document. -/
def writeConfig (text : String) : Operation :=
  .edit (.write (.ofText "heuristics.yaml") (text.toList.map Char.toNat) none)

theorem exists_of_bareRun (environment : Config.Environment) (ops : List Operation)
    (p : Services → Bool) (h : (bareRun environment ops).any p = true) :
    ∃ s, (build (bareSettings environment) bareTree).value = .ok s ∧ p (s.after ops) = true := by
  obtain ⟨t, ht, hp⟩ := (Option.any_eq_true _ _).mp h
  unfold bareRun at ht
  cases hs : (build (bareSettings environment) bareTree).value with
  | error f => simp [hs, Except.toOption] at ht
  | ok s =>
    simp only [hs, Except.toOption, Option.map_some, Option.some.injEq] at ht
    exact ⟨s, rfl, ht ▸ hp⟩

end DecisionGate.Services
