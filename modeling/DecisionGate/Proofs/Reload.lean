import DecisionGate.Proofs.Compilation

/-!
# One signal of a change

A signal makes the store read its file and tell the mind of a new document. This module says what
becomes of the mind then: a document that is not accepted leaves it as it was, an accepted one is
compiled anew and published in the place of the bundle. There is a third outcome that was not meant
to be. An accepted configuration that holds itself cannot be published, and by then the compiler
has already dropped its cache and filled it again from that configuration.
-/
namespace DecisionGate

namespace Config

/-- What a document comes to in an environment. An empty document stands for the defaults as soon
as a variable is set. -/
def overlaid (document : Entries) (env : Environment) : Entries :=
  match present env with
  | [] => document
  | values => applyAll (if document.isEmpty then defaultEntries else document) values

/-- Where a configuration comes from that was read from a file. -/
def sourceIn (env : Environment) : Source :=
  match present env with
  | [] => .file
  | _ :: _ => .environmentAndFile

/-- What a document comes to, when it passes the checks. -/
def accepted? (document : Entries) (env : Environment) : Option Entries :=
  match check (.map (overlaid document env)) with
  | .ok [] => some (overlaid document env)
  | _ => none

theorem accepted?_eq_some {document config : Entries} {env : Environment} :
    accepted? document env = some config ↔
      check (.map (overlaid document env)) = .ok [] ∧ overlaid document env = config := by
  unfold accepted?
  split <;> simp_all

theorem ne_nil_of_check {config : Entries} (h : check (.map config) = .ok []) : config ≠ [] := by
  intro hempty
  obtain rfl := hempty
  cases h

/-- A document that is accepted in the environment is what is in effect. -/
theorem resolve_accepted {document config : Entries} {env : Environment}
    (h : accepted? document env = some config) :
    (resolve (.map document) env).value = .ok (config, sourceIn env) := by
  obtain ⟨hcheck, rfl⟩ := accepted?_eq_some.mp h
  cases hp : present env with
  | nil =>
    simp only [overlaid, hp] at hcheck
    simp only [resolve, candidate, overlay, hp, ok_bind, Value.isNull, overlaid, sourceIn, hcheck,
      Bool.false_eq_true, if_false]
    rfl
  | cons v vs =>
    simp only [overlaid, hp] at hcheck
    simp only [resolve, candidate, overlay, hp, ok_bind, Value.isNull, overlaid, sourceIn, hcheck]
    rfl

end Config

namespace Mind

/-- The accepted configuration that a signal finds in the file, if there is one. -/
def offered? (m : Mind) (tree : Files.Tree) : Option Entries :=
  match (Config.readDocument m.store.toOrigin tree).value with
  | .ok (some d) => Config.accepted? d m.environment
  | _ => none

/-- The mind whose store keeps a mapping as its document. -/
def keeping (m : Mind) (d : Entries) : Mind := { m with store := (m.store.keep d).2 }

/-- The compiler after both passes of a reload. -/
def passed (m : Mind) (config : Entries) : Compiler :=
  { m.compiler.renewed config with hits := m.compiler.hits + Builtin.all.length }

/-- The bundle that takes the place of another one. -/
def successor (m : Mind) (old : Bundle) (config : Entries) : Bundle where
  serial := m.published
  artifacts := old.artifacts
  functions := m.compiler.renewedFunctions config
  config := config
  source := Config.sourceIn m.environment

theorem candidate_eq (d : Entries) (env : Config.Environment) :
    candidate d env = .ok (Config.overlaid d env, Config.sourceIn env) := by
  cases hp : Config.present env with
  | nil => simp [candidate, Config.overlay, Config.overlaid, Config.sourceIn, hp]
  | cons v vs => simp [candidate, Config.overlay, Config.overlaid, Config.sourceIn, hp]

theorem renew_refused {m : Mind} {c : Config.Change}
    (h : Config.accepted? c.new.entries m.environment = none) : (m.renew c).value.2 = m := by
  simp only [Config.accepted?] at h
  simp only [renew, candidate_eq]
  cases hc : Config.check (.map (Config.overlaid c.new.entries m.environment)) with
  | error f => rfl
  | ok problems =>
    cases problems with
    | nil => simp [hc] at h
    | cons p ps => rfl

theorem renew_unloaded {m : Mind} {c : Config.Change} (h : m.bundle = none) :
    (m.renew c).value.2 = m := by
  simp only [renew, candidate_eq, h]
  split <;> rfl

variable {m : Mind} {c : Config.Change} {b : Bundle} {config : Entries}

/-- Both passes of a reload come through; only the publication can still fail. -/
theorem renew_accepted (hb : m.bundle = some b)
    (h : Config.accepted? c.new.entries m.environment = some config) :
    (m.renew c).value.2 =
      if (Value.map config).isEndless false then { m with compiler := m.passed config }
      else
        { m with
          compiler := m.passed config
          bundle := some (m.successor b config)
          published := m.published + 1 } := by
  obtain ⟨hcheck, rfl⟩ := Config.accepted?_eq_some.mp h
  obtain ⟨done, hinv⟩ := m.compiler.invalidate_value (Config.ne_nil_of_check hcheck)
  have hall := m.compiler.compileEach_renewed (Config.overlaid c.new.entries m.environment)
  simp only [renew, candidate_eq, hcheck, hb, recompile, Report.value_bind, hinv, compileAll, hall,
    Report.value_pure, publish]
  by_cases he : (Value.map (Config.overlaid c.new.entries m.environment)).isEndless false = true
  · simp only [he, if_true]
    rfl
  · simp only [he, Bool.false_eq_true, if_false]
    rfl

/-- The mind after each of its subscriptions was told of a change. -/
def told (c : Config.Change) (is : List Subscriber) (m : Mind) : Mind :=
  is.foldl (fun m _ => (m.renew c).value.2) m

theorem told_cons (c : Config.Change) (i : Subscriber) (is : List Subscriber) (m : Mind) :
    told c (i :: is) m = told c is (m.renew c).value.2 := rfl

theorem tell_value (is : List Subscriber) (m : Mind) :
    (audience.tell c is m).value = told c is m := by
  induction is generalizing m with
  | nil => rfl
  | cons i is ih =>
    simp only [Config.Audience.tell, Report.value_bind, told_cons]
    split
    · rw [Report.value_bind, ih]
      rfl
    · rw [ih]
      rfl

theorem handle_unread {tree : Files.Tree}
    (h : ∀ d, (Config.readDocument m.store.toOrigin tree).value ≠ .ok (some d)) :
    (audience.handle tree m).value.2 = m := by
  simp only [Config.Audience.handle, audience, Config.Store.refresh, Report.value_bind]
  cases hr : (Config.readDocument m.store.toOrigin tree).value with
  | error f => rfl
  | ok found =>
    cases found with
    | none => rfl
    | some d => exact absurd hr (h d)

/-- A document that was read is kept, and every subscription is told of it. -/
theorem handle_read {tree : Files.Tree} {d : Entries}
    (h : (Config.readDocument m.store.toOrigin tree).value = .ok (some d)) :
    ∃ c : Config.Change, c.new.entries = d ∧
      (audience.handle tree m).value = (.ok true, told c m.store.subscribers (m.keeping d)) := by
  refine ⟨⟨⟨m.store.reads, d⟩, m.store.document⟩, rfl, ?_⟩
  rw [← tell_value]
  simp only [Config.Audience.handle, Config.Store.refresh, Report.value_bind]
  simp only [audience, h]
  rfl

/-- A bundle took the place of another one with a configuration. -/
structure Takes (config : Entries) (source : Config.Source) (old new : Bundle) : Prop where
  config_eq : new.config = config
  source_eq : new.source = source
  artifacts_eq : new.artifacts = old.artifacts
  heuristics_eq : new.functions.map Prod.fst = Builtin.all
  compiled : ∀ p ∈ new.functions,
    ∃ n, p.2 = Compiler.builtinFunction n p.1 (Config.sectionOf config p.1.id)

/-- Either an accepted configuration takes the place of the one before, in a new bundle whose
functions are all that the cache holds, or nothing changes that a session or a gate can see. -/
def AllOrNothing (m : Mind) (b : Bundle) (tree : Files.Tree) : Prop :=
  let m' := (audience.handle tree m).value.2
  match m.offered? tree with
  | some config => m.published < m'.published ∧ ∃ b', m'.bundle = some b' ∧
    Takes config (Config.sourceIn m.environment) b b' ∧
    m'.compiler.compiled = Compiler.underIds b'.functions
  | none => m'.bundle = m.bundle ∧ m'.shelf = m.shelf ∧ m'.compiler = m.compiler

theorem successor_takes (m : Mind) (b : Bundle) (config : Entries) :
    Takes config (Config.sourceIn m.environment) b (m.successor b config) where
  config_eq := rfl
  source_eq := rfl
  artifacts_eq := rfl
  heuristics_eq := m.compiler.map_fst_renewedFunctions config
  compiled _ hp := Compiler.eq_of_mem_builtinFunctions hp

/-- Telling the mind changes nothing but the compiler and the bundle. -/
theorem renew_frame (m : Mind) (c : Config.Change) :
    (m.renew c).value.2.store = m.store ∧ (m.renew c).value.2.shelf = m.shelf ∧
      (m.renew c).value.2.environment = m.environment := by
  cases h : Config.accepted? c.new.entries m.environment with
  | none => simp [renew_refused h]
  | some config =>
    cases hb : m.bundle with
    | none => simp [renew_unloaded hb]
    | some b =>
      rw [renew_accepted hb h]
      split <;> exact ⟨rfl, rfl, rfl⟩

theorem told_frame (c : Config.Change) (is : List Subscriber) (m : Mind) :
    (told c is m).store = m.store ∧ (told c is m).shelf = m.shelf ∧
      (told c is m).environment = m.environment := by
  induction is generalizing m with
  | nil => exact ⟨rfl, rfl, rfl⟩
  | cons i is ih =>
    obtain ⟨hstore, hshelf, henv⟩ := ih (m.renew c).value.2
    obtain ⟨hstore', hshelf', henv'⟩ := m.renew_frame c
    exact ⟨hstore.trans hstore', hshelf.trans hshelf', henv.trans henv'⟩

theorem told_refused (is : List Subscriber)
    (h : Config.accepted? c.new.entries m.environment = none) : told c is m = m := by
  induction is with
  | nil => rfl
  | cons i is ih => rw [told_cons, renew_refused h, ih]

theorem told_unloaded (is : List Subscriber) (h : m.bundle = none) : told c is m = m := by
  induction is with
  | nil => rfl
  | cons i is ih => rw [told_cons, renew_unloaded h, ih]

/-- A configuration without an end keeps the bundle, but the compiler counts its misses. -/
theorem told_endless (is : List Subscriber) (hb : m.bundle = some b)
    (h : Config.accepted? c.new.entries m.environment = some config)
    (he : (Value.map config).isEndless false = true) :
    (told c is m).bundle = some b ∧ (told c is m).published = m.published ∧
      (told c is m).compiler.misses = m.compiler.misses + Builtin.all.length * is.length := by
  induction is generalizing m with
  | nil => exact ⟨hb, rfl, rfl⟩
  | cons i is ih =>
    rw [told_cons, renew_accepted hb h, if_pos he]
    obtain ⟨hbundle, hpublished, hmisses⟩ := ih (m := { m with compiler := m.passed config }) hb h
    refine ⟨hbundle, hpublished, hmisses.trans ?_⟩
    simp only [passed, Compiler.renewed, Compiler.withFresh, List.length_cons, Nat.mul_succ]
    omega

/-- A configuration with an end takes the place of the one before, however often the mind is
told. -/
theorem told_accepted (is : List Subscriber) (hne : is ≠ []) (hb : m.bundle = some b)
    (h : Config.accepted? c.new.entries m.environment = some config)
    (he : (Value.map config).isEndless false = false) :
    m.published < (told c is m).published ∧ ∃ b', (told c is m).bundle = some b' ∧
      Takes config (Config.sourceIn m.environment) b b' ∧
      (told c is m).compiler.compiled = Compiler.underIds b'.functions := by
  induction is generalizing m b with
  | nil => exact absurd rfl hne
  | cons i is ih =>
    have htakes := m.successor_takes b config
    rw [told_cons, renew_accepted hb h, he]
    cases is with
    | nil => exact ⟨Nat.lt_succ_self _, _, rfl, htakes, m.compiler.compiled_renewed config⟩
    | cons j is =>
      let next : Mind :=
        { m with
          compiler := m.passed config
          bundle := some (m.successor b config)
          published := m.published + 1 }
      obtain ⟨hlt, b', hb', ht, hcache⟩ :=
        ih (m := next) (b := m.successor b config) (by simp) rfl h
      refine ⟨Nat.lt_trans (Nat.lt_succ_self _) hlt, b', hb', ?_, hcache⟩
      exact { ht with artifacts_eq := ht.artifacts_eq.trans htakes.artifacts_eq }

/-- A signal is handled as it is meant to be, unless the file holds an accepted configuration and
the mind is not subscribed any more, or the configuration has no end. -/
theorem allOrNothing_iff_offered (hb : m.bundle = some b) (tree : Files.Tree) :
    m.AllOrNothing b tree ↔ ∀ config, m.offered? tree = some config →
      m.store.subscribers ≠ [] ∧ (Value.map config).isEndless false = false := by
  by_cases hread : ∃ d, (Config.readDocument m.store.toOrigin tree).value = .ok (some d)
  · obtain ⟨d, hd⟩ := hread
    obtain ⟨c, hc, hhandle⟩ := handle_read hd
    have hoffer : m.offered? tree = Config.accepted? d m.environment := by
      unfold offered?
      rw [hd]
    have hkept : (m.keeping d).bundle = some b := hb
    unfold AllOrNothing
    rw [hhandle, hoffer]
    cases hacc : Config.accepted? d m.environment with
    | none =>
      have hrefused : Config.accepted? c.new.entries (m.keeping d).environment = none := hc ▸ hacc
      rw [told_refused m.store.subscribers hrefused]
      exact iff_of_true ⟨rfl, rfl, rfl⟩ nofun
    | some config =>
      have haccepted : Config.accepted? c.new.entries (m.keeping d).environment = some config :=
        hc ▸ hacc
      constructor
      · intro h config' hconfig'
        obtain rfl : config = config' := Option.some.inj hconfig'
        obtain ⟨hlt, -⟩ := h
        refine ⟨?_, Bool.eq_false_iff.mpr fun he => ?_⟩
        · intro hnil
          rw [hnil] at hlt
          exact Nat.lt_irrefl _ hlt
        · have hsame := (told_endless m.store.subscribers hkept haccepted he).2.1
          rw [hsame] at hlt
          exact Nat.lt_irrefl _ hlt
      · intro h
        obtain ⟨hne, he⟩ := h config rfl
        exact told_accepted m.store.subscribers hne hkept haccepted he
  · have hnone : ∀ d, (Config.readDocument m.store.toOrigin tree).value ≠ .ok (some d) :=
      fun d hd => hread ⟨d, hd⟩
    have hoffer : m.offered? tree = none := by
      unfold offered?
      split
      · next d hd => exact absurd hd (hnone d)
      · rfl
    unfold AllOrNothing
    rw [hoffer, handle_unread hnone]
    exact iff_of_true ⟨rfl, rfl, rfl⟩ nofun

end Mind

end DecisionGate
