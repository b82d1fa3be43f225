import DecisionGate.Proofs.Convergence
import DecisionGate.Web.Application

/-!
# What a reload reports

Whoever asks for a reload is answered by the store, which counts the documents that it could read.
What becomes of a document is decided later, by a subscriber that gives no answer. So a reload
reports that the file was read, and not that anything was published. This module says what is
reported for every file and every queue, when the reload publishes, and that the two agree exactly
when the file can be read and no mapping in it is refused or without an end.
-/
namespace DecisionGate

open Config (Stops HoldsMapping)

namespace Mind

variable {m : Mind} {b : Bundle} {tree : Files.Tree} {d : Entries}

/-- What a document comes to in the environment is accepted and has an end. -/
def Publishable (d : Entries) (env : Config.Environment) : Prop :=
  ∃ config, Config.accepted? d env = some config ∧ (Value.map config).isEndless false = false

theorem offered?_of_mapping (hd : HoldsMapping m.store.toOrigin tree d) :
    m.offered? tree = Config.accepted? d m.environment := by
  rw [offered?, Config.readDocument_of_holdsMapping hd]

theorem exists_mapping_of_offered? {config : Entries} (h : m.offered? tree = some config) :
    ∃ d, HoldsMapping m.store.toOrigin tree d := by
  unfold offered? at h
  split at h
  · next d hd => exact ⟨d, Config.holdsMapping_of_read (by rw [hd]; rfl)⟩
  · cases h

theorem published_le_renew (m : Mind) (c : Config.Change) :
    m.published ≤ (m.renew c).value.2.published := by
  cases hacc : Config.accepted? c.new.entries m.environment with
  | none => exact Nat.le_of_eq (congrArg published (renew_refused hacc).symm)
  | some config =>
    cases hb : m.bundle with
    | none => exact Nat.le_of_eq (congrArg published (renew_unloaded hb).symm)
    | some b =>
      rw [renew_accepted hb hacc]
      split
      · exact Nat.le_refl _
      · exact Nat.le_succ _

theorem published_le_told (c : Config.Change) (is : List Subscriber) (m : Mind) :
    m.published ≤ (told c is m).published := by
  induction is generalizing m with
  | nil => exact Nat.le_refl _
  | cons i is ih => exact Nat.le_trans (m.published_le_renew c) (ih _)

theorem published_le_handle (tree : Files.Tree) (m : Mind) :
    m.published ≤ (audience.handle tree m).value.2.published := by
  by_cases hread : ∃ d, (Config.readDocument m.store.toOrigin tree).value = .ok (some d)
  · obtain ⟨d, hd⟩ := hread
    obtain ⟨c, -, hhandle⟩ := handle_read hd
    rw [hhandle]
    exact published_le_told c m.store.subscribers (m.keeping d)
  · have hsame := handle_unread fun d hd => hread ⟨d, hd⟩
    exact Nat.le_of_eq (congrArg published hsame.symm)

/-- A mapping that is refused or without an end leaves the bundle in its place. -/
theorem handle_unpublishable (hb : m.bundle = some b) (hd : HoldsMapping m.store.toOrigin tree d)
    (h : ¬ Publishable d m.environment) :
    (audience.handle tree m).value.2.bundle = some b ∧
      (audience.handle tree m).value.2.published = m.published := by
  obtain ⟨c, rfl, hhandle⟩ := handle_read (m := m) (Config.readDocument_of_holdsMapping hd)
  have hkept : (m.keeping c.new.entries).bundle = some b := hb
  rw [hhandle]
  cases hacc : Config.accepted? c.new.entries m.environment with
  | none =>
    rw [told_refused (m := m.keeping c.new.entries) m.store.subscribers hacc]
    exact ⟨hb, rfl⟩
  | some config =>
    have hendless : (Value.map config).isEndless false = true := by
      by_contra hends
      exact h ⟨config, hacc, Bool.eq_false_iff.mpr hends⟩
    obtain ⟨hbundle, hpublished, -⟩ := told_endless m.store.subscribers hkept hacc hendless
    exact ⟨hbundle, hpublished⟩

theorem handle_publishable (hb : m.bundle = some b) (hsub : m.store.subscribers ≠ [])
    (hd : HoldsMapping m.store.toOrigin tree d) (h : Publishable d m.environment) :
    m.published < (audience.handle tree m).value.2.published := by
  obtain ⟨c, rfl, hhandle⟩ := handle_read (m := m) (Config.readDocument_of_holdsMapping hd)
  obtain ⟨config, hacc, hends⟩ := h
  rw [hhandle]
  exact (told_accepted (m := m.keeping c.new.entries) m.store.subscribers hsub hb hacc hends).1

theorem published_le_processUpTo (tree : Files.Tree) (fuel : Nat) (m : Mind) :
    m.published ≤ (audience.processUpTo tree fuel m).value.2.published :=
  Config.Audience.processUpTo_keeps (I := fun m' => m.published ≤ m'.published) tree
    (fun _ _ _ _ h => h) (fun m' h => Nat.le_trans h (published_le_handle tree m')) fuel
    (Nat.le_refl _)

theorem process_unpublishable (hb : m.bundle = some b) (hd : HoldsMapping m.store.toOrigin tree d)
    (h : ¬ Publishable d m.environment) :
    (m.process tree).value.2.bundle = some b ∧
      (m.process tree).value.2.published = m.published := by
  -- The file and the environment stay, so every signal finds the same mapping.
  refine (Config.Audience.processUpTo_keeps
    (I := fun m' => SameFrame m m' ∧ m'.bundle = some b ∧ m'.published = m.published)
    tree ?_ ?_ _ ⟨.refl m, hb, rfl⟩).2
  · intro m' x rest _ hsofar
    obtain ⟨hframe, hkept⟩ := hsofar
    exact ⟨hframe.trans (m'.withPending_sameFrame rest), hkept⟩
  · intro m' hsofar
    obtain ⟨hframe, hbundle, hpublished⟩ := hsofar
    have hd' : HoldsMapping m'.store.toOrigin tree d := hframe.origin ▸ hd
    obtain ⟨hbundle', hpublished'⟩ :=
      handle_unpublishable hbundle hd' (hframe.environment ▸ h)
    exact ⟨hframe.trans (handle_sameFrame tree m').1, hbundle', hpublished'.trans hpublished⟩

/-- The first signal publishes, and the others at most publish again. -/
theorem process_publishable (hb : m.bundle = some b) (hsub : m.store.subscribers ≠ [])
    (hpending : m.store.pending ≠ []) (hd : HoldsMapping m.store.toOrigin tree d)
    (h : Publishable d m.environment) : m.published < (m.process tree).value.2.published := by
  obtain ⟨x, rest, hp⟩ := List.exists_cons_of_ne_nil hpending
  have hfuel : (audience.store m).pending.length + 0 = rest.length + 1 := by
    rw [show (audience.store m).pending = x :: rest from hp, List.length_cons]
  have hone := handle_publishable (m := m.withPending rest) hb hsub hd h
  rw [process, Config.Audience.process, hfuel, processUpTo_cons tree rest.length hp]
  cases hv : (audience.handle tree (m.withPending rest)).value with
  | mk r m' =>
    rw [hv] at hone
    cases r with
    | error f => exact hone
    | ok applied => exact Nat.lt_of_lt_of_le hone (published_le_processUpTo tree _ m')

/-- What a loaded mind publishes last is what the mapping of the file comes to. -/
theorem exists_published (hb : m.bundle = some b) (hsub : m.store.subscribers ≠ [])
    (hpending : m.store.pending ≠ []) (hd : HoldsMapping m.store.toOrigin tree d)
    (h : Publishable d m.environment) :
    ∃ b', (m.process tree).value.2.bundle = some b' ∧
      b'.config = Config.overlaid d m.environment := by
  obtain ⟨config, hacc, hends⟩ := h
  obtain ⟨-, hconfig⟩ := Config.accepted?_eq_some.mp hacc
  have hupToDate :=
    (process_upToDate (Config.readDocument_of_holdsMapping hd) hsub hpending).1
  have hframe := processUpTo_sameFrame tree (m.store.pending.length + 0) m
  obtain ⟨b', hb'⟩ : ∃ b', (m.process tree).value.2.bundle = some b' := by
    rcases processUpTo_bundle tree (m.store.pending.length + 0) m with
      hsame | ⟨-, config', a, b', hrenews⟩
    · exact ⟨b, hsame.trans hb⟩
    · exact ⟨b', hrenews.after⟩
  have hacc' : Config.accepted? d (m.process tree).value.2.environment = some config := by
    rw [show (m.process tree).value.2.environment = m.environment from hframe.environment]
    exact hacc
  exact ⟨b', hb', (hupToDate.bundle config hacc' hends b' hb').1.trans hconfig.symm⟩

theorem processUpTo_of_mapping {signals : List String} (hp : m.store.pending = signals)
    (hd : HoldsMapping m.store.toOrigin tree d) :
    (audience.processUpTo tree signals.length m).value.1 = .ok signals.length := by
  induction signals generalizing m with
  | nil => rw [List.length_nil, processUpTo_nil tree 0 hp]
  | cons x rest ih =>
    have hread := Config.readDocument_of_holdsMapping hd
    obtain ⟨c, -, hhandle⟩ := handle_read (m := m.withPending rest) hread
    obtain ⟨hframe, hpending⟩ := handle_sameFrame tree (m.withPending rest)
    have hpop : audience.withStore m { audience.store m with pending := rest } =
        m.withPending rest := rfl
    rw [List.length_cons, Config.Audience.processUpTo_cons tree rest.length hp, hpop, hhandle]
    rw [hhandle] at hframe hpending
    have hrest := ih hpending (hframe.origin ▸ hd)
    simp only [hrest, Except.map, Bool.toNat_true]

theorem reload_value (m : Mind) (tree : Files.Tree) :
    (m.reload tree).value =
      (((m.notify "reload_request").process tree).value.1.map fun n => decide (0 < n),
        ((m.notify "reload_request").process tree).value.2) := rfl

theorem pending_notify (m : Mind) (source : String) : (m.notify source).store.pending ≠ [] := by
  simp [notify, Config.Store.notify]

/-- A reload reports whether the file holds a mapping, whatever else is in the queue, and passes on
what stops the reading. -/
theorem reload_answer (m : Mind) (tree : Files.Tree) :
    (∀ f, Stops m.store.toOrigin tree f → (m.reload tree).value.1 = .error f) ∧
      (∀ d, HoldsMapping m.store.toOrigin tree d → (m.reload tree).value.1 = .ok true) ∧
      ((¬ ∃ f, Stops m.store.toOrigin tree f) → (¬ ∃ d, HoldsMapping m.store.toOrigin tree d) →
        (m.reload tree).value.1 = .ok false) := by
  rw [reload_value]
  refine ⟨fun f hstops => ?_, fun d hd => ?_, fun hstops hmapping => ?_⟩
  · obtain ⟨x, rest, hp⟩ := List.exists_cons_of_ne_nil (m.pending_notify "reload_request")
    have hstopped :=
      audience_lawful.process_of_stops (s := m.notify "reload_request") 0 hp hstops
    rw [process, hstopped]
    rfl
  · have hcount := processUpTo_of_mapping (m := m.notify "reload_request") rfl hd
    have hpos := List.length_pos_of_ne_nil (m.pending_notify "reload_request")
    have hprocess : ((m.notify "reload_request").process tree).value.1 =
        .ok (m.notify "reload_request").store.pending.length := hcount
    simp only [hprocess, Except.map, hpos, decide_true]
  · have hnone := Config.readDocument_eq_none_iff.mpr ⟨hstops, hmapping⟩
    have hprocess : ((m.notify "reload_request").process tree).value.1 = .ok 0 :=
      congrArg Prod.fst (audience_lawful.processUpTo_of_none (s := m.notify "reload_request") _ rfl
        (Nat.le_add_right _ 0) hnone)
    simp [hprocess, Except.map]

end Mind

namespace Services

open Mind (Publishable)

/-- A reload says what became of it: that it was done only if a bundle was published whose
configuration is the mapping in the file as it comes out in the environment, and that it was not
if that configuration is refused or nothing could be read. -/
structure TruthfulReload (s : Services) : Prop where
  published : s.reloadConfig.value.1 = .ok true → ∃ d b,
    HoldsMapping s.mind.store.toOrigin s.tree d ∧
      s.mind.published < (s.step .reloadConfig).mind.published ∧
      (s.step .reloadConfig).mind.bundle = some b ∧
      b.config = Config.overlaid d s.mind.environment
  refused : ∀ d, HoldsMapping s.mind.store.toOrigin s.tree d →
    Config.accepted? d s.mind.environment = none → s.reloadConfig.value.1 = .ok false
  unread : (¬ ∃ d, HoldsMapping s.mind.store.toOrigin s.tree d) → s.reloadConfig.value.1 = .ok false

theorem mind_reloadConfig (s : Services) :
    (s.step .reloadConfig).mind = ((s.mind.notify "reload_request").process s.tree).value.2 := rfl

/-- A loaded and subscribed mind publishes at a reload exactly what is accepted and has an end, and
keeps its bundle otherwise. -/
theorem reload_publishes_iff {s : Services} {b : Mind.Bundle} {d : Entries}
    (hb : s.mind.bundle = some b) (hsub : s.mind.store.subscribers ≠ [])
    (hd : HoldsMapping s.mind.store.toOrigin s.tree d) :
    (s.mind.published < (s.step .reloadConfig).mind.published ↔
        Publishable d s.mind.environment) ∧
      (¬ Publishable d s.mind.environment → (s.step .reloadConfig).mind.bundle = some b) := by
  rw [mind_reloadConfig]
  refine ⟨⟨fun hlt => ?_, fun h => ?_⟩, fun h => ?_⟩
  · by_contra h
    have hkept := (Mind.process_unpublishable (m := s.mind.notify "reload_request") hb hd h).2
    rw [hkept] at hlt
    exact Nat.lt_irrefl _ hlt
  · exact Mind.process_publishable (m := s.mind.notify "reload_request") hb hsub
      (s.mind.pending_notify _) hd h
  · exact (Mind.process_unpublishable (m := s.mind.notify "reload_request") hb hd h).1

theorem truthfulReload_iff {s : Services} {b : Mind.Bundle} (hb : s.mind.bundle = some b)
    (hsub : s.mind.store.subscribers ≠ []) :
    s.TruthfulReload ↔ (¬ ∃ f, Stops s.mind.store.toOrigin s.tree f) ∧
      ∀ d, HoldsMapping s.mind.store.toOrigin s.tree d → Publishable d s.mind.environment := by
  obtain ⟨hstopped, hmapping, hnothing⟩ := s.mind.reload_answer s.tree
  constructor
  · intro h
    constructor
    · intro hstops
      obtain ⟨f, hf⟩ := hstops
      have hnone : ¬ ∃ d, HoldsMapping s.mind.store.toOrigin s.tree d := by
        intro hd
        obtain ⟨d, hd⟩ := hd
        cases (Config.readDocument_of_stops hf).symm.trans
          (Config.readDocument_of_holdsMapping hd)
      cases (hstopped f hf).symm.trans (h.unread hnone)
    · intro d hd
      obtain ⟨_, _, -, hlt, -⟩ := h.published (hmapping d hd)
      exact (reload_publishes_iff hb hsub hd).1.mp hlt
  · intro h
    obtain ⟨hstops, hpublishable⟩ := h
    refine ⟨fun hdone => ?_, fun d hd hrefused => ?_, fun hnone => hnothing hstops hnone⟩
    · by_cases hd : ∃ d, HoldsMapping s.mind.store.toOrigin s.tree d
      · obtain ⟨d, hd⟩ := hd
        have hp := hpublishable d hd
        obtain ⟨b', hb', hconfig⟩ := Mind.exists_published
          (m := s.mind.notify "reload_request") hb hsub (s.mind.pending_notify _) hd hp
        exact ⟨d, b', hd, (reload_publishes_iff hb hsub hd).1.mpr hp, hb', hconfig⟩
      · cases (hnothing hstops hd).symm.trans hdone
    · obtain ⟨config, haccepted, -⟩ := hpublishable d hd
      cases hrefused.symm.trans haccepted

/-- The response to a request for a reload says what the reload reported. -/
theorem reloadConfig_response {s : Services} {done : Bool}
    (h : s.reloadConfig.value.1 = .ok done) :
    ∃ r, (Web.reloadConfig s).value.1 = .ok r ∧ r.status = 200 ∧
      r.body.field "reloaded" = .bool done := by
  simp only [Web.reloadConfig, Report.value_bind, Report.value_pure, h]
  exact ⟨_, rfl, rfl, rfl⟩

/-- With the mind loaded and subscribed, a reload is truthful exactly when reading the file does not
stop and a mapping in it is accepted and has an end. What stops the reading is passed on; a mapping
is always reported as a reload, in the response to a request too, but only one that is accepted and
has an end is published, and any other leaves the bundle in its place. -/
theorem reload_truthful_iff {s : Services} {b : Mind.Bundle} (hb : s.mind.bundle = some b)
    (hsub : .mind ∈ s.mind.store.subscribers) :
    (s.TruthfulReload ↔ (¬ ∃ f, Stops s.mind.store.toOrigin s.tree f) ∧
        ∀ d, HoldsMapping s.mind.store.toOrigin s.tree d → Publishable d s.mind.environment) ∧
      (∀ f, Stops s.mind.store.toOrigin s.tree f → s.reloadConfig.value.1 = .error f) ∧
      (∀ d, HoldsMapping s.mind.store.toOrigin s.tree d →
        s.reloadConfig.value.1 = .ok true ∧
          (s.mind.published < (s.step .reloadConfig).mind.published ↔
            Publishable d s.mind.environment) ∧
          (¬ Publishable d s.mind.environment →
            (s.step .reloadConfig).mind.bundle = some b)) ∧
      ∀ done, s.reloadConfig.value.1 = .ok done → ∃ r, (Web.reloadConfig s).value.1 = .ok r ∧
        r.status = 200 ∧ r.body.field "reloaded" = .bool done := by
  have hne : s.mind.store.subscribers ≠ [] := List.ne_nil_of_mem hsub
  obtain ⟨hstopped, hmapping, -⟩ := s.mind.reload_answer s.tree
  refine ⟨truthfulReload_iff hb hne, hstopped, fun d hd => ⟨hmapping d hd, ?_⟩, ?_⟩
  · exact reload_publishes_iff hb hne hd
  · intro done hdone
    exact reloadConfig_response hdone

/-- Whether the mind is loaded and subscribed. -/
def isListening (s : Services) : Bool :=
  s.mind.isLoaded && decide (Mind.Subscriber.mind ∈ s.mind.store.subscribers)

/-- Whether the file offers an accepted configuration with an end. -/
def offersEnd (s : Services) : Bool :=
  (s.mind.offered? s.tree).any fun config => !(Value.map config).isEndless false

set_option maxRecDepth 100000 in
theorem reload_truthful_iff_written : ∃ start s b,
    (build (bareSettings filling) bareTree).value = .ok start ∧
      s = start.after (loadThenWrite "version: v\n") ∧
      s.mind.bundle = some b ∧ .mind ∈ s.mind.store.subscribers ∧
      s.TruthfulReload ∧ s.reloadConfig.value.1 = .ok true := by
  obtain ⟨start, hstart, hrun⟩ := exists_of_bareRun filling (loadThenWrite "version: v\n")
    (fun s => s.isListening && s.offersEnd) (by decide +kernel)
  obtain ⟨s, hs⟩ : ∃ s, s = start.after (loadThenWrite "version: v\n") := ⟨_, rfl⟩
  rw [← hs] at hrun
  obtain ⟨hlistening, hoffers⟩ := Bool.and_eq_true_iff.mp hrun
  obtain ⟨hloaded, hsub⟩ := Bool.and_eq_true_iff.mp hlistening
  obtain ⟨b, hb⟩ := Option.isSome_iff_exists.mp hloaded
  obtain ⟨config, hoffer, hends⟩ := (Option.any_eq_true _ _).mp hoffers
  obtain ⟨d, hd⟩ := Mind.exists_mapping_of_offered? hoffer
  obtain ⟨hiff, -, hmapping, -⟩ := reload_truthful_iff hb (of_decide_eq_true hsub)
  refine ⟨start, s, b, hstart, hs, hb, of_decide_eq_true hsub, hiff.mpr ⟨?_, fun d' hd' => ?_⟩,
    (hmapping d hd).1⟩
  · intro hstops
    obtain ⟨f, hf⟩ := hstops
    cases (Config.readDocument_of_stops hf).symm.trans (Config.readDocument_of_holdsMapping hd)
  · exact ⟨config, (Mind.offered?_of_mapping hd').symm.trans hoffer, by simpa using hends⟩

/-- Whether the file holds a mapping and offers nothing. -/
def holdsRefused (s : Services) : Bool :=
  s.inFile?.isSome && (s.mind.offered? s.tree).isNone

set_option maxRecDepth 100000 in
/-- A document with nothing but a version is refused, and its reload is reported all the same. -/
theorem refused_reported : ∃ start s b d,
    (build (bareSettings []) bareTree).value = .ok start ∧
      s = start.after (loadThenWrite "version: v\n") ∧
      s.mind.bundle = some b ∧ .mind ∈ s.mind.store.subscribers ∧
      HoldsMapping s.mind.store.toOrigin s.tree d ∧
      Config.accepted? d s.mind.environment = none ∧
      s.reloadConfig.value.1 = .ok true ∧ (s.step .reloadConfig).mind.bundle = some b ∧
      ¬ s.TruthfulReload := by
  obtain ⟨start, hstart, hrun⟩ := exists_of_bareRun [] (loadThenWrite "version: v\n")
    (fun s => s.isListening && s.holdsRefused) (by decide +kernel)
  obtain ⟨s, hs⟩ : ∃ s, s = start.after (loadThenWrite "version: v\n") := ⟨_, rfl⟩
  rw [← hs] at hrun
  obtain ⟨hlistening, hrefused⟩ := Bool.and_eq_true_iff.mp hrun
  obtain ⟨hloaded, hsub⟩ := Bool.and_eq_true_iff.mp hlistening
  obtain ⟨hfile, hoffer⟩ := Bool.and_eq_true_iff.mp hrefused
  obtain ⟨b, hb⟩ := Option.isSome_iff_exists.mp hloaded
  obtain ⟨d, hd⟩ := Option.isSome_iff_exists.mp hfile
  have hmapping : HoldsMapping s.mind.store.toOrigin s.tree d :=
    Config.holdsMapping_of_read (by rw [inFile?_eq_some.mp hd]; rfl)
  have hnone : Config.accepted? d s.mind.environment = none :=
    (Mind.offered?_of_mapping hmapping).symm.trans (Option.isNone_iff_eq_none.mp hoffer)
  have hunpublishable : ¬ Publishable d s.mind.environment := by
    intro h
    obtain ⟨config, hacc, -⟩ := h
    cases hnone.symm.trans hacc
  have hsub' := of_decide_eq_true hsub
  have hdone := (s.mind.reload_answer s.tree).2.1 d hmapping
  have hkept := (reload_publishes_iff hb (List.ne_nil_of_mem hsub') hmapping).2 hunpublishable
  refine ⟨start, s, b, d, hstart, hs, hb, hsub', hmapping, hnone, hdone, hkept, fun h => ?_⟩
  cases hdone.symm.trans (h.refused d hmapping hnone)

end Services

end DecisionGate
