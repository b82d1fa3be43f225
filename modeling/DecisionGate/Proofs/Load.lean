import DecisionGate.Proofs.Reload

/-!
# Loading the mind

A load that comes through publishes the document of the store as it comes out in the environment,
with the functions that one pass over the built-in heuristics gives. That pass starts from whatever
the cache of the compiler holds. Any other load leaves the mind without a bundle.
-/
namespace DecisionGate

namespace Config.Store

variable {ι : Type}

/-- Two stores that differ in their documents at most. -/
structure SameWatch (s s' : Store ι) : Prop where
  origin : s'.toOrigin = s.toOrigin
  subscribers : s'.subscribers = s.subscribers
  pending : s'.pending = s.pending
  fingerprint : s'.fingerprint = s.fingerprint

theorem SameWatch.refl (s : Store ι) : SameWatch s s := ⟨rfl, rfl, rfl, rfl⟩

theorem SameWatch.path {s s' : Store ι} (h : SameWatch s s') : s'.path = s.path :=
  congrArg Origin.path h.origin

theorem load_value (s : Store ι) (tree : Files.Tree) :
    (s.load tree).value =
      match (readDocument s.toOrigin tree).value with
      | .error f => (.error f, s)
      | .ok none => (.ok none, s)
      | .ok (some d) => (.ok (some (s.keep d).1), (s.keep d).2) := by
  simp only [load, Report.value_bind]
  cases (readDocument s.toOrigin tree).value with
  | error f => rfl
  | ok found => cases found <;> rfl

theorem load_sameWatch (s : Store ι) (tree : Files.Tree) :
    SameWatch s (s.load tree).value.2 := by
  rw [load_value]
  split <;> exact ⟨rfl, rfl, rfl, rfl⟩

theorem get_sameWatch (s : Store ι) (tree : Files.Tree) : SameWatch s (s.get tree).value.2 := by
  unfold get
  split
  · exact .refl s
  · exact s.load_sameWatch tree

/-- A document that follows from the file is what the store gives and keeps. -/
theorem get_value {s : Store ι} {tree : Files.Tree} {d : Entries}
    (hd : (readDocument s.toOrigin tree).value = .ok (some d))
    (h : ∀ found, s.document = some found → found.entries = d) :
    ∃ found, found.entries = d ∧ (s.get tree).value.1 = .ok (some found) ∧
      (s.get tree).value.2.document = some found := by
  unfold get
  cases hdoc : s.document with
  | some found => exact ⟨found, h found hdoc, rfl, hdoc⟩
  | none =>
    simp only [load_value, hd]
    exact ⟨⟨s.reads, d⟩, rfl, rfl, rfl⟩

end Config.Store

namespace Mind

/-- A document as the choice of the configuration takes it. -/
def documentValue (found : Option Config.Document) : Value :=
  match found with
  | some d => .map d.entries
  | none => .null

/-- What a bundle that was loaded comes from. -/
structure Loads (m : Mind) (tree : Files.Tree) (b : Bundle) : Prop where
  document : ∃ found, (m.store.get tree).value.1 = .ok found ∧
    (Config.resolve (documentValue found) m.environment).value = .ok (b.config, b.source)
  functions : (compileEach b.config m.compiler Builtin.all).value.1 = .ok b.functions
  ends : (Value.map b.config).isEndless false = false

variable {m : Mind} {tree : Files.Tree}

theorem load_loaded {b : Bundle} (h : m.bundle = some b) : (m.load tree).value = (.ok b, m) := by
  simp [load, h]

theorem resolve_value (m : Mind) (tree : Files.Tree) :
    (m.resolve tree).value =
      (match (m.store.get tree).value.1 with
        | .error f => .error f
        | .ok found => liftFault (Config.resolve (documentValue found) m.environment).value,
      { m with store := (m.store.get tree).value.2 }) := by
  simp only [resolve, Report.value_bind]
  cases (m.store.get tree).value.1 with
  | error f => rfl
  | ok found => cases found <;> rfl

/-- Putting the parts together touches the shelf and the compiler only. -/
theorem assemble_frame (m : Mind) (config : Entries) (tree : Files.Tree) :
    (m.assemble config tree).value.2.store = m.store ∧
      (m.assemble config tree).value.2.environment = m.environment ∧
      (m.assemble config tree).value.2.bundle = m.bundle ∧
      (m.assemble config tree).value.2.published = m.published := by
  simp only [assemble, Report.value_bind]
  cases (m.shelf.loadAll tree).value.1 with
  | error f => exact ⟨rfl, rfl, rfl, rfl⟩
  | ok artifacts => exact ⟨rfl, rfl, rfl, rfl⟩

theorem assemble_functions {config : Entries} {artifacts : List (Artifact × Value)}
    {fs : List (Builtin × DecisionFunction)}
    (h : (m.assemble config tree).value.1 = .ok (artifacts, fs)) :
    (compileEach config m.compiler Builtin.all).value.1 = .ok fs := by
  simp only [assemble, Report.value_bind] at h
  cases ha : (m.shelf.loadAll tree).value.1 with
  | error f => simp [ha] at h
  | ok found =>
    simp only [ha, compileAll, Report.value_bind, Report.value_pure] at h
    cases hc : (compileEach config m.compiler Builtin.all).value.1 with
    | error f => simp [hc, Except.map] at h
    | ok fs' =>
      simp only [hc, Except.map, Except.ok.injEq, Prod.mk.injEq] at h
      rw [h.2]

/-- A load of an unloaded mind reads the document when there is none yet, and publishes a bundle or
none. -/
theorem load_unloaded (tree : Files.Tree) (h : m.bundle = none) :
    (m.load tree).value.2.store = (m.store.get tree).value.2 ∧
      (m.load tree).value.2.environment = m.environment ∧
      ((m.load tree).value.2.bundle = none ∨
        ∃ b, (m.load tree).value.2.bundle = some b ∧ Loads m tree b) := by
  obtain ⟨read, hread⟩ : ∃ read : Mind, read = { m with store := (m.store.get tree).value.2 } :=
    ⟨_, rfl⟩
  have hbundle : read.bundle = none := by rw [hread, h]
  have hresolve := m.resolve_value tree
  rw [← hread] at hresolve
  simp only [load, h, Report.value_bind, hresolve]
  have hstart : read.store = (m.store.get tree).value.2 ∧ read.environment = m.environment ∧
      read.bundle = none := by
    simp [hread, h]
  cases hget : (m.store.get tree).value.1 with
  | error f => exact ⟨hstart.1, hstart.2.1, .inl hbundle⟩
  | ok found =>
    simp only
    cases hres : (Config.resolve (documentValue found) m.environment).value with
    | error f => exact ⟨hstart.1, hstart.2.1, .inl hbundle⟩
    | ok resolved =>
      obtain ⟨config, source⟩ := resolved
      have hframe := read.assemble_frame config tree
      simp only [liftFault, mapError_ok, Report.value_bind]
      cases hparts : (read.assemble config tree).value with
      | mk parts m' =>
        rw [hparts] at hframe
        obtain ⟨hstore, henv, hbundle', -⟩ := hframe
        have hstore' : m'.store = (m.store.get tree).value.2 := by rw [hstore, hread]
        have henv' : m'.environment = m.environment := by rw [henv, hread]
        have hnone : m'.bundle = none := hbundle'.trans hbundle
        cases parts with
        | error f =>
          simp only
          split <;> exact ⟨hstore', henv', .inl hnone⟩
        | ok parts =>
          obtain ⟨artifacts, fs⟩ := parts
          have hcompiled := assemble_functions (congrArg Prod.fst hparts)
          simp only [publish]
          by_cases he : (Value.map config).isEndless false = true
          · simp only [he, if_true]
            exact ⟨hstore', henv', .inl hnone⟩
          · simp only [he, Bool.false_eq_true, if_false]
            refine ⟨hstore', henv', .inr ⟨_, rfl, ?_⟩⟩
            rw [hread] at hcompiled
            exact
              { document := ⟨found, hget, hres⟩
                functions := hcompiled
                ends := Bool.eq_false_iff.mpr he }

/-- A load that gives a bundle has put it into the mind. -/
theorem bundle_of_load {b : Bundle}
    (h : (m.load tree).value.1 = .ok b) : (m.load tree).value.2.bundle = some b := by
  unfold load at h ⊢
  cases hbundle : m.bundle with
  | some b' =>
    simp only [hbundle, Report.value_bind, Report.value_pure] at h ⊢
    exact congrArg some (Except.ok.inj h)
  | none =>
    simp only [hbundle, Report.value_bind] at h ⊢
    cases hresolve : (m.resolve tree).value with
    | mk resolved read =>
      simp only [hresolve] at h ⊢
      cases resolved with
      | error f => cases h
      | ok resolved =>
        simp only [Report.value_bind] at h ⊢
        cases hparts : (read.assemble resolved.1 tree).value with
        | mk parts m' =>
          simp only [hparts] at h ⊢
          cases parts with
          | error f =>
            simp only at h
            split at h <;> cases h
          | ok parts =>
            simp only at h ⊢
            cases hpublish : m'.publish parts.1 parts.2 resolved.1 resolved.2 with
            | error f => simp [hpublish] at h
            | ok m'' =>
              simp only [hpublish, Report.value_bind, Report.value_pure] at h ⊢
              unfold current at h
              split at h
              · next hb => rw [hb, Except.ok.inj h]
              · cases h

/-- Loading leaves the watcher and its queue alone. -/
theorem load_frame (m : Mind) (tree : Files.Tree) :
    Config.Store.SameWatch m.store (m.load tree).value.2.store ∧
      (m.load tree).value.2.environment = m.environment := by
  cases hb : m.bundle with
  | some b =>
    rw [load_loaded hb]
    exact ⟨.refl m.store, rfl⟩
  | none =>
    obtain ⟨hstore, henv, -⟩ := load_unloaded tree hb
    rw [hstore]
    exact ⟨m.store.get_sameWatch tree, henv⟩

end Mind

end DecisionGate
