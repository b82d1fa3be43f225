import DecisionGate.Proofs.Reload

/-!
# Taking the queued signals

All queued signals are taken against one tree of files, so they all find the same document. This
module says what taking them never touches, when it can change the bundle, and what holds after it
when the file could be read.
-/
namespace DecisionGate

namespace Config.Audience

variable {ι σ : Type} {a : Audience ι σ} {s : σ}

theorem processUpTo_nil (tree : Files.Tree) (fuel : Nat) (h : (a.store s).pending = []) :
    (a.processUpTo tree fuel s).value = (.ok 0, s) := by
  cases fuel with
  | zero => rfl
  | succ fuel => simp [processUpTo, h]

/-- One signal is taken, and the rest unless that failed. -/
theorem processUpTo_cons (tree : Files.Tree) (fuel : Nat) {x : String} {rest : List String}
    (h : (a.store s).pending = x :: rest) :
    (a.processUpTo tree (fuel + 1) s).value =
      match (a.handle tree (a.withStore s { a.store s with pending := rest })).value with
      | (.error f, s') => (.error f, s')
      | (.ok applied, s') =>
        ((a.processUpTo tree fuel s').value.1.map (· + applied.toNat),
          (a.processUpTo tree fuel s').value.2) := by
  simp only [processUpTo, h, Report.value_bind]
  cases (a.handle tree (a.withStore s { a.store s with pending := rest })).value with
  | mk r s' => cases r <;> rfl

/-- What taking a signal off the queue and handling one both keep, taking the whole queue keeps. -/
theorem processUpTo_keeps (tree : Files.Tree) {I : σ → Prop}
    (hpop : ∀ s x rest, (a.store s).pending = x :: rest → I s →
      I (a.withStore s { a.store s with pending := rest }))
    (hhandle : ∀ s, I s → I (a.handle tree s).value.2) (fuel : Nat) {s : σ} (hs : I s) :
    I (a.processUpTo tree fuel s).value.2 := by
  induction fuel generalizing s with
  | zero => exact hs
  | succ fuel ih =>
    cases hpending : (a.store s).pending with
    | nil => rwa [processUpTo_nil tree (fuel + 1) hpending]
    | cons x rest =>
      have hone := hhandle _ (hpop s x rest hpending hs)
      rw [processUpTo_cons tree fuel hpending]
      cases hv : (a.handle tree (a.withStore s { a.store s with pending := rest })).value with
      | mk r s' =>
        rw [hv] at hone
        cases r with
        | error f => exact hone
        | ok applied => exact ih hone

end Config.Audience

namespace Mind

variable {m : Mind} {b : Bundle} {config : Entries} {tree : Files.Tree} {d : Entries}

/-- What no signal changes: everything but the document, the queue, the compiler and the bundle. -/
structure SameFrame (m m' : Mind) : Prop where
  origin : m'.store.toOrigin = m.store.toOrigin
  subscribers : m'.store.subscribers = m.store.subscribers
  fingerprint : m'.store.fingerprint = m.store.fingerprint
  environment : m'.environment = m.environment
  shelf : m'.shelf = m.shelf

theorem SameFrame.refl (m : Mind) : SameFrame m m := ⟨rfl, rfl, rfl, rfl, rfl⟩

theorem SameFrame.trans {m m' m'' : Mind} (h : SameFrame m m') (h' : SameFrame m' m'') :
    SameFrame m m'' where
  origin := h'.origin.trans h.origin
  subscribers := h'.subscribers.trans h.subscribers
  fingerprint := h'.fingerprint.trans h.fingerprint
  environment := h'.environment.trans h.environment
  shelf := h'.shelf.trans h.shelf

theorem SameFrame.path {m m' : Mind} (h : SameFrame m m') : m'.store.path = m.store.path :=
  congrArg Config.Origin.path h.origin

theorem offered?_congr {m m' : Mind} (horigin : m'.store.toOrigin = m.store.toOrigin)
    (henv : m'.environment = m.environment) (tree : Files.Tree) :
    m'.offered? tree = m.offered? tree := by
  simp [offered?, horigin, henv]

theorem handle_sameFrame (tree : Files.Tree) (m : Mind) :
    SameFrame m (audience.handle tree m).value.2 ∧
      (audience.handle tree m).value.2.store.pending = m.store.pending := by
  by_cases hread : ∃ d, (Config.readDocument m.store.toOrigin tree).value = .ok (some d)
  · obtain ⟨d, hd⟩ := hread
    obtain ⟨c, -, hhandle⟩ := handle_read hd
    obtain ⟨hstore, hshelf, henv⟩ := told_frame c m.store.subscribers (m.keeping d)
    rw [hhandle]
    refine ⟨⟨?_, ?_, ?_, henv, hshelf⟩, ?_⟩ <;> rw [hstore] <;> rfl
  · rw [handle_unread fun d hd => hread ⟨d, hd⟩]
    exact ⟨.refl m, rfl⟩

/-- What changes the bundle of a mind: the file holds an accepted configuration that has an end. -/
structure Renews (m m' : Mind) (tree : Files.Tree) (config : Entries) (b b' : Bundle) : Prop where
  before : m.bundle = some b
  offered : m.offered? tree = some config
  ends : (Value.map config).isEndless false = false
  after : m'.bundle = some b'
  takes : Takes config (Config.sourceIn m.environment) b b'

/-- The bundle stays, or it is renewed. -/
def Renewal (tree : Files.Tree) (m m' : Mind) : Prop :=
  m'.bundle = m.bundle ∨ ∃ config b b', Renews m m' tree config b b'

/-- Of two renewals the later one counts, and it keeps the artifacts of the bundle before both. -/
theorem Renews.after_renewal {m m' m'' : Mind} {b' : Bundle} (hframe : SameFrame m m')
    (h : Renewal tree m m') (h' : Renews m' m'' tree config b b') :
    ∃ a, Renews m m'' tree config a b' := by
  have hoffer : m.offered? tree = some config :=
    (offered?_congr hframe.origin hframe.environment tree).symm.trans h'.offered
  have htakes := h'.takes
  rw [hframe.environment] at htakes
  rcases h with hsame | ⟨config', a, a', hfirst⟩
  · exact ⟨b,
      { before := hsame.symm.trans h'.before
        offered := hoffer
        ends := h'.ends
        after := h'.after
        takes := htakes }⟩
  · obtain rfl : a' = b := Option.some.inj (hfirst.after.symm.trans h'.before)
    exact ⟨a,
      { before := hfirst.before
        offered := hoffer
        ends := h'.ends
        after := h'.after
        takes := { htakes with
          artifacts_eq := htakes.artifacts_eq.trans hfirst.takes.artifacts_eq } }⟩

theorem Renewal.trans {m m' m'' : Mind} (hframe : SameFrame m m') (h : Renewal tree m m')
    (h' : Renewal tree m' m'') : Renewal tree m m'' := by
  rcases h' with hkept | ⟨config, b, b', hrenews⟩
  · rcases h with hsame | ⟨config, b, b', hrenews⟩
    · exact .inl (hkept.trans hsame)
    · exact .inr ⟨config, b, b', { hrenews with after := hkept.trans hrenews.after }⟩
  · obtain ⟨a, hboth⟩ := hrenews.after_renewal hframe h
    exact .inr ⟨config, a, b', hboth⟩

theorem handle_renewal (tree : Files.Tree) (m : Mind) :
    Renewal tree m (audience.handle tree m).value.2 := by
  by_cases hread : ∃ d, (Config.readDocument m.store.toOrigin tree).value = .ok (some d)
  · obtain ⟨d, hd⟩ := hread
    obtain ⟨c, hc, hhandle⟩ := handle_read hd
    have hoffer : m.offered? tree = Config.accepted? c.new.entries m.environment := by
      simp [offered?, hd, hc]
    rw [hhandle]
    cases hacc : Config.accepted? c.new.entries m.environment with
    | none =>
      rw [told_refused (m := m.keeping d) m.store.subscribers hacc]
      exact .inl rfl
    | some config =>
      cases hb : m.bundle with
      | none =>
        rw [told_unloaded (m := m.keeping d) m.store.subscribers hb]
        exact .inl rfl
      | some b =>
        cases he : (Value.map config).isEndless false with
        | true =>
          have hkept := (told_endless (m := m.keeping d) m.store.subscribers hb hacc he).1
          exact .inl (hkept.trans hb.symm)
        | false =>
          by_cases hsub : m.store.subscribers = []
          · rw [hsub]
            exact .inl rfl
          · obtain ⟨-, b', hb', htakes, -⟩ :=
              told_accepted (m := m.keeping d) m.store.subscribers hsub hb hacc he
            exact .inr ⟨config, b, b', hb, hoffer.trans hacc, he, hb', htakes⟩
  · rw [handle_unread fun d hd => hread ⟨d, hd⟩]
    exact .inl rfl

/-- The document and the bundle of a mind, as far as there are any, follow from a mapping. -/
structure UpToDate (m : Mind) (d : Entries) : Prop where
  document : ∀ found, m.store.document = some found → found.entries = d
  bundle : ∀ config, Config.accepted? d m.environment = some config →
    (Value.map config).isEndless false = false → ∀ b, m.bundle = some b →
    b.config = config ∧ b.source = Config.sourceIn m.environment

theorem handle_upToDate (hd : (Config.readDocument m.store.toOrigin tree).value = .ok (some d))
    (hsub : m.store.subscribers ≠ []) :
    (audience.handle tree m).value.1 = .ok true ∧
      UpToDate (audience.handle tree m).value.2 d := by
  obtain ⟨c, hc, hhandle⟩ := handle_read hd
  obtain ⟨hstore, -, henv⟩ := told_frame c m.store.subscribers (m.keeping d)
  rw [hhandle]
  refine ⟨rfl, ?_, ?_⟩
  · intro found hfound
    rw [hstore] at hfound
    exact Option.some.inj hfound ▸ rfl
  · intro config hacc he b' hb'
    rw [henv] at hacc
    rw [henv]
    have haccepted : Config.accepted? c.new.entries (m.keeping d).environment = some config :=
      hc ▸ hacc
    cases hb : m.bundle with
    | none =>
      have hnone := told_unloaded (c := c) (m := m.keeping d) m.store.subscribers hb
      rw [hnone] at hb'
      exact absurd (hb.symm.trans hb') (by simp)
    | some b =>
      obtain ⟨-, b'', hb'', htakes, -⟩ :=
        told_accepted (m := m.keeping d) m.store.subscribers hsub hb haccepted he
      obtain rfl : b'' = b' := Option.some.inj (hb''.symm.trans hb')
      exact ⟨htakes.config_eq, htakes.source_eq⟩

/-- The mind with other signals in its queue. -/
def withPending (m : Mind) (signals : List String) : Mind :=
  { m with store := { m.store with pending := signals } }

theorem processUpTo_nil (tree : Files.Tree) (fuel : Nat) (h : m.store.pending = []) :
    (audience.processUpTo tree fuel m).value = (.ok 0, m) :=
  Config.Audience.processUpTo_nil tree fuel h

/-- One signal is taken, and the rest unless that failed. -/
theorem processUpTo_cons (tree : Files.Tree) (fuel : Nat) {x : String} {rest : List String}
    (h : m.store.pending = x :: rest) :
    (audience.processUpTo tree (fuel + 1) m).value.2 =
      match (audience.handle tree (m.withPending rest)).value with
      | (.error _, m') => m'
      | (.ok _, m') => (audience.processUpTo tree fuel m').value.2 := by
  have hpop : audience.withStore m { audience.store m with pending := rest } =
      m.withPending rest := rfl
  rw [Config.Audience.processUpTo_cons tree fuel h, hpop]
  cases (audience.handle tree (m.withPending rest)).value with
  | mk r m' => cases r <;> rfl

theorem withPending_sameFrame (m : Mind) (signals : List String) :
    SameFrame m (m.withPending signals) := ⟨rfl, rfl, rfl, rfl, rfl⟩

theorem processUpTo_sameFrame (tree : Files.Tree) (fuel : Nat) (m : Mind) :
    SameFrame m (audience.processUpTo tree fuel m).value.2 :=
  Config.Audience.processUpTo_keeps (I := SameFrame m) tree
    (fun m' _ rest _ h => h.trans (m'.withPending_sameFrame rest))
    (fun m' h => h.trans (handle_sameFrame tree m').1) fuel (.refl m)

theorem processUpTo_renewal (tree : Files.Tree) (fuel : Nat) (m : Mind) :
    Renewal tree m (audience.processUpTo tree fuel m).value.2 := by
  -- All that was taken so far is one renewal, within one frame.
  refine (Config.Audience.processUpTo_keeps (I := fun m' => SameFrame m m' ∧ Renewal tree m m')
    tree ?_ ?_ fuel ⟨.refl m, .inl rfl⟩).2
  · intro m' x rest _ hsofar
    obtain ⟨hframe, hrenewal⟩ := hsofar
    exact ⟨hframe.trans (m'.withPending_sameFrame rest), hrenewal.trans hframe (.inl rfl)⟩
  · intro m' hsofar
    obtain ⟨hframe, hrenewal⟩ := hsofar
    exact ⟨hframe.trans (handle_sameFrame tree m').1,
      hrenewal.trans hframe (handle_renewal tree m')⟩

/-- Taking the queue changes the bundle only when there is a signal and what it finds is
published. -/
theorem processUpTo_bundle (tree : Files.Tree) (fuel : Nat) (m : Mind) :
    (audience.processUpTo tree fuel m).value.2.bundle = m.bundle ∨
      m.store.pending ≠ [] ∧ ∃ config b b',
        Renews m (audience.processUpTo tree fuel m).value.2 tree config b b' := by
  by_cases hp : m.store.pending = []
  · rw [processUpTo_nil tree fuel hp]
    exact .inl rfl
  · rcases processUpTo_renewal tree fuel m with hsame | hrenews
    · exact .inl hsame
    · exact .inr ⟨hp, hrenews⟩

/-- After every signal the document is the file's, so it is after the last. -/
theorem processAll_upToDate {signals : List String} (hp : m.store.pending = signals)
    (hne : signals ≠ []) (hsub : m.store.subscribers ≠ [])
    (hd : (Config.readDocument m.store.toOrigin tree).value = .ok (some d)) :
    UpToDate (audience.processUpTo tree signals.length m).value.2 d ∧
      (audience.processUpTo tree signals.length m).value.2.store.pending = [] := by
  induction signals generalizing m with
  | nil => exact absurd rfl hne
  | cons x rest ih =>
    rw [List.length_cons, processUpTo_cons tree rest.length hp]
    obtain ⟨hok, hupToDate⟩ := handle_upToDate (m := m.withPending rest) hd hsub
    obtain ⟨hframe, hpending⟩ := handle_sameFrame tree (m.withPending rest)
    cases hv : (audience.handle tree (m.withPending rest)).value with
    | mk r m' =>
      rw [hv] at hok hupToDate hframe hpending
      obtain rfl : r = .ok true := hok
      cases rest with
      | nil => exact ⟨hupToDate, hpending⟩
      | cons y rest =>
        have hsub' : m'.store.subscribers ≠ [] := by
          rw [hframe.subscribers]
          exact hsub
        have hd' : (Config.readDocument m'.store.toOrigin tree).value = .ok (some d) := by
          rw [hframe.origin]
          exact hd
        exact ih hpending (by simp) hsub' hd'

/-- Once the queue is taken, the document is the file's and the bundle follows from it. -/
theorem process_upToDate (hd : (Config.readDocument m.store.toOrigin tree).value = .ok (some d))
    (hsub : m.store.subscribers ≠ []) (hp : m.store.pending ≠ []) :
    UpToDate (m.process tree).value.2 d ∧ (m.process tree).value.2.store.pending = [] :=
  processAll_upToDate rfl hp hsub hd

end Mind

end DecisionGate
