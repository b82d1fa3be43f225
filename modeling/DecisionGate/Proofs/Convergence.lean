import Mathlib.Data.List.Induction
import DecisionGate.Proofs.Operation
import DecisionGate.Proofs.StoreRun

/-!
# No edit is lost

Four pieces of state have to agree for an edit of the document to reach the bundle: the fingerprint
that the watcher saw last, the queue of signals, the document of the store and the bundle. The
invariant is that the document and the bundle follow from the file whenever the watcher has seen the
file as it is and no signal waits. An edit can only break this by giving the file a fingerprint that
it had before.
-/
namespace DecisionGate.Services

/-- The fingerprint of the configuration document as it is now. -/
def found? (s : Services) : Option Files.Fingerprint :=
  (s.tree.fingerprint s.mind.store.path).toOption.join

/-- The mapping that the document holds now. -/
def inFile? (s : Services) : Option Entries :=
  match (Config.readDocument s.mind.store.toOrigin s.tree).value with
  | .ok found => found
  | .error _ => none

/-- The watcher has seen the file as it is, and no signal waits. -/
structure InSight (s : Services) : Prop where
  seen : s.mind.store.fingerprint = s.found?
  quiet : s.mind.store.pending = []

/-- What is in sight is in effect. -/
def Synced (s : Services) : Prop :=
  s.InSight → ∀ d, s.inFile? = some d → s.mind.UpToDate d

/-- The operations after which the mind is still told of changes. -/
def Operation.KeepsWatching : Operation → Prop
  | .close => False
  | .shutDown => False
  | _ => True

theorem inFile?_eq_some {s : Services} {d : Entries} :
    s.inFile? = some d ↔
      (Config.readDocument s.mind.store.toOrigin s.tree).value = .ok (some d) := by
  unfold inFile?
  cases (Config.readDocument s.mind.store.toOrigin s.tree).value <;> simp

/-- What can be read has a fingerprint. -/
theorem isSome_found?_of_inFile? {s : Services} {d : Entries} (h : s.inFile? = some d) :
    s.found?.isSome := by
  have hread : (Config.readDocument s.mind.store.toOrigin s.tree).value.toOption.join = some d := by
    rw [inFile?_eq_some.mp h]
    rfl
  exact (Config.holdsMapping_of_read hread).isSome_printOf?

/-- The file at a path is all that the fingerprint and the reading depend on. -/
theorem file_congr (s s' : Services) (horigin : s'.mind.store.toOrigin = s.mind.store.toOrigin)
    (hfind : s'.tree.find s.mind.store.path = s.tree.find s.mind.store.path) :
    s'.found? = s.found? ∧ s'.inFile? = s.inFile? := by
  unfold found? inFile? Config.readDocument Files.Tree.fingerprint Files.Tree.octets
  rw [horigin, hfind]
  exact ⟨rfl, rfl⟩

theorem get_upToDate {m : Mind} {tree : Files.Tree} {d : Entries}
    (hd : (Config.readDocument m.store.toOrigin tree).value = .ok (some d)) (h : m.UpToDate d) :
    Mind.UpToDate { m with store := (m.store.get tree).value.2 } d := by
  obtain ⟨found, hfound, -, hdoc⟩ := Config.Store.get_value hd h.document
  refine ⟨fun other hother => ?_, h.bundle⟩
  obtain rfl : found = other := Option.some.inj (hdoc.symm.trans hother)
  exact hfound

theorem load_upToDate {m : Mind} {tree : Files.Tree} {d : Entries}
    (hd : (Config.readDocument m.store.toOrigin tree).value = .ok (some d)) (h : m.UpToDate d) :
    (m.load tree).value.2.UpToDate d := by
  cases hb : m.bundle with
  | some b =>
    rw [Mind.load_loaded hb]
    exact h
  | none =>
    obtain ⟨hstore, henv, hbundle⟩ := Mind.load_unloaded tree hb
    refine ⟨fun found hfound => (get_upToDate hd h).document found ?_, ?_⟩
    · rwa [hstore] at hfound
    · intro config hacc _ b hb'
      rw [henv] at hacc
      rcases hbundle with hnone | ⟨b', hsome, hloads⟩
      · exact absurd (hnone.symm.trans hb') (by simp)
      · obtain rfl : b' = b := Option.some.inj (hsome.symm.trans hb')
        obtain ⟨found, hfound, hget, -⟩ := Config.Store.get_value hd h.document
        obtain ⟨found', hget', hresolve⟩ := hloads.document
        obtain rfl : some found = found' := Except.ok.inj (hget.symm.trans hget')
        have hresolved := Config.resolve_accepted hacc
        rw [Mind.documentValue, hfound] at hresolve
        have hpair := Except.ok.inj (hresolve.symm.trans hresolved)
        rw [henv]
        exact Prod.mk.inj hpair

theorem storeLoad_upToDate {m : Mind} {tree : Files.Tree} {d : Entries}
    (hd : (Config.readDocument m.store.toOrigin tree).value = .ok (some d)) (h : m.UpToDate d) :
    Mind.UpToDate { m with store := (m.store.load tree).value.2 } d := by
  refine ⟨fun found hfound => ?_, h.bundle⟩
  simp only [Config.Store.load_value, hd] at hfound
  exact Option.some.inj hfound ▸ rfl

/-- An operation that leaves the files and the watcher alone keeps what is in sight in effect, if
it does so for a document that can be read. -/
theorem synced_of_upToDate {s s' : Services} (h : s.Synced) (htree : s'.tree = s.tree)
    (hwatch : Config.Store.SameWatch s.mind.store s'.mind.store)
    (hup : ∀ d, (Config.readDocument s.mind.store.toOrigin s.tree).value = .ok (some d) →
      s.mind.UpToDate d → s'.mind.UpToDate d) : s'.Synced := by
  obtain ⟨hfound, hfile⟩ := file_congr s s' hwatch.origin (by rw [htree])
  intro hsight d hd
  rw [hfile] at hd
  refine hup d (inFile?_eq_some.mp hd) (h ⟨?_, ?_⟩ d hd)
  · rw [← hwatch.fingerprint, ← hfound]
    exact hsight.seen
  · rw [← hwatch.pending]
    exact hsight.quiet

/-- A look at the file does nothing when the file is the one seen last, or cannot be asked for.
Else it keeps the fingerprint and, when there is a file, queues a signal. -/
theorem poll_mind (s : Services) :
    (s.step .poll).mind = s.mind ∧ (s.mind.store.fingerprint = s.found? ∨ s.found? = none) ∨
      (s.step .poll).mind = { s.mind with store := { s.mind.store with
        fingerprint := s.found?
        pending := s.mind.store.pending ++ if s.found?.isSome then ["watcher"] else [] } } := by
  have hmind : (s.step .poll).mind =
      { s.mind with store := (s.mind.store.poll s.tree).2 } := rfl
  rw [hmind]
  rcases s.mind.store.poll_cases s.tree with ⟨hsame, -, hcase⟩ | ⟨-, -, hnew⟩
  · rw [hsame]
    exact .inl ⟨rfl, hcase⟩
  · rw [hnew]
    exact .inr rfl

theorem poll_synced {s : Services} (h : s.Synced) : (s.step .poll).Synced := by
  rcases s.poll_mind with ⟨hmind, -⟩ | hmind
  · refine synced_of_upToDate h rfl (by rw [hmind]; exact .refl _) fun d _ hup => ?_
    rw [hmind]
    exact hup
  · intro hsight d hd
    have hquiet := hsight.quiet
    have hfile := file_congr s (s.step .poll) (by rw [hmind]) rfl
    rw [hfile.2] at hd
    rw [hmind] at hquiet
    simp [isSome_found?_of_inFile? hd] at hquiet

theorem process_synced {s : Services} (h : s.Synced) (hsub : s.mind.store.subscribers ≠ []) :
    (s.step .process).Synced := by
  by_cases hp : s.mind.store.pending = []
  · have hsame : (s.mind.process s.tree).value = (.ok 0, s.mind) := Mind.processUpTo_nil s.tree _ hp
    have hmind : (s.step .process).mind = s.mind := congrArg Prod.snd hsame
    refine synced_of_upToDate h rfl (by rw [hmind]; exact .refl _) fun d _ hup => ?_
    rw [hmind]
    exact hup
  · intro hsight d hd
    have hframe := Mind.processUpTo_sameFrame s.tree (s.mind.store.pending.length + 0) s.mind
    have hfile := file_congr s (s.step .process) hframe.origin rfl
    rw [hfile.2] at hd
    exact (Mind.process_upToDate (inFile?_eq_some.mp hd) hsub hp).1

theorem reloadConfig_synced {s : Services} (hsub : s.mind.store.subscribers ≠ []) :
    (s.step .reloadConfig).Synced := by
  intro hsight d hd
  let asked := s.mind.notify "reload_request"
  have hframe := Mind.processUpTo_sameFrame s.tree (asked.store.pending.length + 0) asked
  have hfile := file_congr s (s.step .reloadConfig) hframe.origin rfl
  rw [hfile.2] at hd
  have hasked : asked.store.pending ≠ [] := by simp [asked, Mind.notify, Config.Store.notify]
  exact (Mind.process_upToDate (m := asked) (inFile?_eq_some.mp hd) hsub hasked).1

/-- Every operation but an edit keeps what is in sight in effect. -/
theorem synced_step {s : Services} (h : s.Synced) (hsub : s.mind.store.subscribers ≠ [])
    (op : Operation) (hop : op.KeepsWatching) (hedit : ∀ e, op ≠ .edit e) :
    (s.step op).Synced := by
  cases op with
  | edit e => exact absurd rfl (hedit e)
  | close => exact hop.elim
  | shutDown => exact hop.elim
  | poll => exact poll_synced h
  | process => exact process_synced h hsub
  | reloadConfig => exact reloadConfig_synced hsub
  | notify source =>
    intro hsight
    have hquiet : s.mind.store.pending ++ [source] = [] := hsight.quiet
    simp at hquiet
  | load =>
    exact synced_of_upToDate h rfl (s.mind.load_frame s.tree).1 fun d hd => load_upToDate hd
  | session id =>
    have hmind := s.session_mind id
    have htree : (s.step (.session id)).tree = s.tree := (s.session_frame id).1
    split at hmind
    · refine synced_of_upToDate h htree ?_ fun d hd hup => ?_
      · rw [show (s.step (.session id)).mind = _ from hmind]
        exact (s.mind.load_frame s.tree).1
      · rw [show (s.step (.session id)).mind = _ from hmind]
        exact load_upToDate hd hup
    · refine synced_of_upToDate h htree ?_ fun d _ hup => ?_
      · rw [show (s.step (.session id)).mind = _ from hmind]
        exact .refl _
      · rw [show (s.step (.session id)).mind = _ from hmind]
        exact hup
  | document =>
    exact synced_of_upToDate h rfl (s.mind.store.get_sameWatch s.tree) fun d hd => get_upToDate hd
  | reloadStore =>
    exact synced_of_upToDate h rfl (s.mind.store.load_sameWatch s.tree)
      fun d hd => storeLoad_upToDate hd
  | reset => exact synced_of_upToDate h rfl (.refl _) fun d _ hup => ⟨hup.document, nofun⟩
  | destroyAll => exact synced_of_upToDate h rfl (.refl _) fun d _ hup => ⟨hup.document, nofun⟩
  | _ => exact synced_of_upToDate h rfl (.refl _) fun d _ hup => ⟨hup.document, hup.bundle⟩

/-- An edit keeps what is in sight in effect unless it brings back the fingerprint seen last. -/
theorem edit_synced {s : Services} (h : s.Synced) {e : Files.Edit}
    (hfresh : (s.step (.edit e)).tree.find s.mind.store.path = s.tree.find s.mind.store.path ∨
      ∀ fp, (s.step (.edit e)).found? = some fp → s.mind.store.fingerprint ≠ some fp) :
    (s.step (.edit e)).Synced := by
  intro hsight d hd
  rcases hfresh with hsame | hfresh
  · obtain ⟨hfound, hfile⟩ := file_congr s (s.step (.edit e)) rfl hsame
    exact h ⟨hsight.seen.trans hfound, hsight.quiet⟩ d (hfile ▸ hd)
  · obtain ⟨fp, hfp⟩ := Option.isSome_iff_exists.mp (isSome_found?_of_inFile? hd)
    exact absurd (hsight.seen.trans hfp) (hfresh fp hfp)

/-- The subscriptions stay, and the fingerprint is the old one or that of the file. -/
theorem watcher_step (s : Services) (op : Operation) (hop : op.KeepsWatching) :
    (s.step op).mind.store.subscribers = s.mind.store.subscribers ∧
      ((s.step op).mind.store.fingerprint = s.mind.store.fingerprint ∨
        (s.step op).mind.store.fingerprint = s.found?) := by
  cases op with
  | close => exact hop.elim
  | shutDown => exact hop.elim
  | poll =>
    rcases s.poll_mind with ⟨hmind, -⟩ | hmind
    · rw [hmind]
      exact ⟨rfl, .inl rfl⟩
    · rw [hmind]
      exact ⟨rfl, .inr rfl⟩
  | process =>
    have hframe := Mind.processUpTo_sameFrame s.tree (s.mind.store.pending.length + 0) s.mind
    exact ⟨hframe.subscribers, .inl hframe.fingerprint⟩
  | reloadConfig =>
    let asked := s.mind.notify "reload_request"
    have hframe := Mind.processUpTo_sameFrame s.tree (asked.store.pending.length + 0) asked
    exact ⟨hframe.subscribers, .inl hframe.fingerprint⟩
  | load =>
    have hwatch := (s.mind.load_frame s.tree).1
    exact ⟨hwatch.subscribers, .inl hwatch.fingerprint⟩
  | session id =>
    rw [show (s.step (.session id)).mind = _ from s.session_mind id]
    split
    · have hwatch := (s.mind.load_frame s.tree).1
      exact ⟨hwatch.subscribers, .inl hwatch.fingerprint⟩
    · exact ⟨rfl, .inl rfl⟩
  | document =>
    have hwatch := s.mind.store.get_sameWatch s.tree
    exact ⟨hwatch.subscribers, .inl hwatch.fingerprint⟩
  | reloadStore =>
    have hwatch := s.mind.store.load_sameWatch s.tree
    exact ⟨hwatch.subscribers, .inl hwatch.fingerprint⟩
  | _ => exact ⟨rfl, .inl rfl⟩

/-- Every edit leaves the document alone, takes it away, or gives it a fingerprint that it never had
before. -/
def FreshEdits (s : Services) (ops : List Operation) : Prop :=
  ∀ before e since, ops = before ++ .edit e :: since →
    ((s.after before).step (.edit e)).tree.find (s.after before).mind.store.path =
        (s.after before).tree.find (s.after before).mind.store.path ∨
      ∀ fp, ((s.after before).step (.edit e)).found? = some fp →
        ∀ earlier, earlier <+: before → (s.after earlier).found? ≠ some fp

theorem FreshEdits.of_append {s : Services} {ops more : List Operation}
    (h : s.FreshEdits (ops ++ more)) : s.FreshEdits ops := by
  intro before e since hsplit
  exact h before e (since ++ more) (by simp [hsplit])

theorem freshEdits_nil (s : Services) : s.FreshEdits [] := by
  intro before e since hsplit
  simp at hsplit

/-- Only an edit at the end has to be looked at. -/
theorem FreshEdits.snoc {s : Services} {ops : List Operation} (h : s.FreshEdits ops)
    (op : Operation) (hlast : ∀ e, op = .edit e →
      ∀ fp, ((s.after ops).step op).found? = some fp →
        ∀ earlier, earlier <+: ops → (s.after earlier).found? ≠ some fp) :
    s.FreshEdits (ops ++ [op]) := by
  intro before e since hsplit
  rcases List.eq_nil_or_concat since with rfl | ⟨since, last, rfl⟩
  · obtain ⟨rfl, hop⟩ := List.append_inj' hsplit rfl
    obtain rfl : op = .edit e := by simpa using hop
    exact .inr (hlast e rfl)
  · rw [List.concat_eq_append, ← List.cons_append, ← List.append_assoc] at hsplit
    exact h before e since (List.append_inj' hsplit rfl).1

/-- What holds after every run: what is in sight is in effect, the fingerprint seen last is one that
the document had, and the mind is told of changes. -/
structure Watched (s : Services) (ops : List Operation) : Prop where
  synced : (s.after ops).Synced
  seen : ∀ fp, (s.after ops).mind.store.fingerprint = some fp →
    ∃ earlier, earlier <+: ops ∧ (s.after earlier).found? = some fp
  subscribed : (s.after ops).mind.store.subscribers ≠ []

theorem watched_snoc {s : Services} {ops : List Operation} {op : Operation} (h : s.Watched ops)
    (hop : op.KeepsWatching) (hfresh : s.FreshEdits (ops ++ [op])) : s.Watched (ops ++ [op]) := by
  obtain ⟨hsub, hprint⟩ := (s.after ops).watcher_step op hop
  refine ⟨?_, ?_, ?_⟩
  · rw [after_append, after_singleton]
    by_cases hedit : ∃ e, op = .edit e
    · obtain ⟨e, rfl⟩ := hedit
      refine edit_synced h.synced ((hfresh ops e [] rfl).imp_right fun hnew fp hfp hlast => ?_)
      obtain ⟨earlier, hprefix, hearlier⟩ := h.seen fp hlast
      exact hnew fp hfp earlier hprefix hearlier
    · exact synced_step h.synced h.subscribed op hop fun e he => hedit ⟨e, he⟩
  · intro fp hfp
    rw [after_append, after_singleton] at hfp
    rcases hprint with hsame | hfound
    · obtain ⟨earlier, hprefix, hearlier⟩ := h.seen fp (hsame.symm.trans hfp)
      exact ⟨earlier, hprefix.trans (List.prefix_append ops [op]), hearlier⟩
    · exact ⟨ops, List.prefix_append ops [op], hfound.symm.trans hfp⟩
  · rw [after_append, after_singleton, hsub]
    exact h.subscribed

/-- Services that were built have seen the file as it is, and hold nothing yet. -/
theorem watched_build {settings : Settings} {tree : Files.Tree} {s : Services}
    (h : (build settings tree).value = .ok s) : s.Watched [] := by
  obtain ⟨seen, hseen, htree, -, hbundle, hstore, -⟩ := build_eq h
  have hfound : s.found? = seen := by simp [found?, htree, hstore, hseen, Except.toOption]
  refine ⟨fun _ d _ => ⟨?_, ?_⟩, fun fp hfp => ⟨[], List.nil_prefix, ?_⟩, ?_⟩
  · simp [hstore]
  · simp [hbundle]
  · have hlast : seen = some fp := by simpa [hstore] using hfp
    exact hfound.trans hlast
  · simp [hstore]

theorem watched_after {settings : Settings} {tree : Files.Tree} {s : Services}
    (hs : (build settings tree).value = .ok s) {ops : List Operation}
    (hkeep : ∀ op ∈ ops, op.KeepsWatching) (hfresh : s.FreshEdits ops) : s.Watched ops := by
  induction ops using List.reverseRecOn with
  | nil => exact watched_build hs
  | append_singleton ops op ih =>
    have hbefore := ih (fun o ho => hkeep o (List.mem_append_left _ ho)) hfresh.of_append
    exact watched_snoc hbefore (hkeep op (by simp)) hfresh

/-- A look at the file and the taking of the queue bring a file that can be read in sight. -/
theorem inSight_poll_process {s : Services} (hsub : s.mind.store.subscribers ≠ []) {d : Entries}
    (hd : ((s.step .poll).step .process).inFile? = some d) :
    ((s.step .poll).step .process).InSight := by
  obtain ⟨polled, hpolled⟩ : ∃ polled, polled = s.step .poll := ⟨_, rfl⟩
  rw [← hpolled] at hd ⊢
  have hframe := Mind.processUpTo_sameFrame polled.tree (polled.mind.store.pending.length + 0)
    polled.mind
  obtain ⟨hfound, hfile⟩ := file_congr polled (polled.step .process) hframe.origin rfl
  rw [hfile] at hd
  have hsub' : polled.mind.store.subscribers ≠ [] := by
    rw [hpolled, (s.watcher_step .poll trivial).1]
    exact hsub
  constructor
  · rw [hfound]
    refine hframe.fingerprint.trans ?_
    have hsome := isSome_found?_of_inFile? hd
    rw [hpolled] at hsome ⊢
    rcases s.poll_mind with ⟨hmind, hcase⟩ | hmind
    · obtain ⟨hsame, -⟩ := file_congr s (s.step .poll) (by rw [hmind]) rfl
      rw [hsame] at hsome ⊢
      rw [hmind]
      rcases hcase with hlast | hnone
      · exact hlast
      · simp [hnone] at hsome
    · obtain ⟨hsame, -⟩ := file_congr s (s.step .poll) (by rw [hmind]) rfl
      rw [hsame, hmind]
  · by_cases hp : polled.mind.store.pending = []
    · have hsame : (polled.mind.process polled.tree).value = (.ok 0, polled.mind) :=
        Mind.processUpTo_nil polled.tree _ hp
      have hmind : (polled.step .process).mind = polled.mind := congrArg Prod.snd hsame
      rw [hmind, hp]
    · exact (Mind.process_upToDate (inFile?_eq_some.mp hd) hsub' hp).2

/-- In every run that leaves the watcher on and whose edits are fresh: once the file was looked at
and the queue was taken, a loaded mind has the configuration that the file holds, if that is
accepted. The only accepted configurations that are lost are those without an end. -/
theorem edit_in_effect_iff {settings : Settings} {tree : Files.Tree} {s : Services}
    (hs : (build settings tree).value = .ok s) {ops : List Operation}
    (hkeep : ∀ op ∈ ops, op.KeepsWatching) (hfresh : s.FreshEdits ops)
    {b : Mind.Bundle} (hb : (s.after (ops ++ [.poll, .process])).mind.bundle = some b)
    {d : Entries} (hd : (s.after (ops ++ [.poll, .process])).inFile? = some d)
    {config : Entries} (hconfig : Config.accepted? d settings.environment = some config) :
    (b.config = config ∧ b.source = Config.sourceIn settings.environment) ↔
      (Value.map config).isEndless false = false := by
  obtain ⟨-, -, -, henv, -⟩ := build_eq hs
  have henv' := (s.environment_after (ops ++ [.poll, .process])).trans henv
  constructor
  · intro h
    obtain ⟨rfl, -⟩ := h
    exact ends_after hs _ b hb
  · intro he
    have hwatched := watched_after hs hkeep hfresh
    have hpolled : (s.after ops).step .poll |>.Synced :=
      synced_step hwatched.synced hwatched.subscribed .poll trivial nofun
    have hsub : ((s.after ops).step .poll).mind.store.subscribers ≠ [] := by
      rw [((s.after ops).watcher_step .poll trivial).1]
      exact hwatched.subscribed
    have hsynced := synced_step hpolled hsub .process trivial nofun
    have hrun : s.after (ops ++ [.poll, .process]) = ((s.after ops).step .poll).step .process := by
      rw [after_append]
      rfl
    rw [hrun] at hb hd henv'
    have hup := hsynced (inSight_poll_process hwatched.subscribed hd) d hd
    have heffect := hup.bundle config (henv' ▸ hconfig) he b hb
    rwa [henv'] at heffect

/-- A run that loads the mind and then writes the document. -/
def loadThenWrite (text : String) : List Operation := [.load, writeConfig text]

/-- There is no document until it is written, and at the end the mind is loaded and the document
holds an accepted configuration of a kind. -/
def writtenOnce (text : String) (p : Entries → Bool) (s : Services) : Bool :=
  let t := s.after (loadThenWrite text ++ [.poll, .process])
  s.found?.isNone && (s.after [.load]).found?.isNone && t.mind.isLoaded &&
    t.inFile?.any fun d => (Config.accepted? d filling).any p

theorem freshEdits_loadThenWrite {s : Services} {text : String} (h : s.found? = none)
    (hloaded : (s.after [.load]).found? = none) : s.FreshEdits (loadThenWrite text) := by
  have hload : s.FreshEdits ([] ++ [.load]) := (freshEdits_nil s).snoc .load nofun
  refine hload.snoc (writeConfig text) fun e _ fp _ earlier hearlier => ?_
  rcases List.prefix_concat_iff.mp hearlier with rfl | hnil
  · rw [List.nil_append, hloaded]
    exact nofun
  · rw [List.prefix_nil.mp hnil, after_nil, h]
    exact nofun

theorem keepsWatching_loadThenWrite (text : String) :
    ∀ op ∈ loadThenWrite text, op.KeepsWatching := by
  simp [loadThenWrite, writeConfig, Operation.KeepsWatching]

/-- What such a run comes to, with the document of the end and its configuration. -/
theorem exists_writtenOnce (text : String) (p : Entries → Bool)
    (h : (bareRun filling []).any (writtenOnce text p) = true) : ∃ s b d config,
    (build (bareSettings filling) bareTree).value = .ok s ∧ s.FreshEdits (loadThenWrite text) ∧
      (s.after (loadThenWrite text ++ [.poll, .process])).mind.bundle = some b ∧
      (s.after (loadThenWrite text ++ [.poll, .process])).inFile? = some d ∧
      Config.accepted? d filling = some config ∧ p config = true := by
  obtain ⟨s, hs, hrun⟩ := exists_of_bareRun filling [] (writtenOnce text p) h
  simp only [after_nil, writtenOnce, Bool.and_eq_true, Option.isNone_iff_eq_none] at hrun
  obtain ⟨⟨⟨hfound, hfound'⟩, hloaded⟩, hfile⟩ := hrun
  obtain ⟨b, hb⟩ := Option.isSome_iff_exists.mp hloaded
  obtain ⟨d, hd, hacc⟩ := (Option.any_eq_true _ _).mp hfile
  obtain ⟨config, hconfig, hp⟩ := (Option.any_eq_true _ _).mp hacc
  exact ⟨s, b, d, config, hs, freshEdits_loadThenWrite hfound hfound', hb, hd, hconfig, hp⟩

set_option maxRecDepth 100000 in
theorem edit_in_effect_iff_written : ∃ s b d config,
    (build (bareSettings filling) bareTree).value = .ok s ∧
      (s.after (loadThenWrite "version: v\n" ++ [.poll, .process])).mind.bundle = some b ∧
      (s.after (loadThenWrite "version: v\n" ++ [.poll, .process])).inFile? = some d ∧
      Config.accepted? d filling = some config ∧
      b.config = config ∧ b.source = Config.sourceIn filling := by
  obtain ⟨s, b, d, config, hs, hfresh, hb, hd, hconfig, hends⟩ :=
    exists_writtenOnce "version: v\n" (fun config => !(Value.map config).isEndless false)
      (by decide +kernel)
  have heffect := (edit_in_effect_iff hs (keepsWatching_loadThenWrite _) hfresh hb hd hconfig).mpr
    (by simpa using hends)
  exact ⟨s, b, d, config, hs, hb, hd, hconfig, heffect⟩

set_option maxRecDepth 100000 in
theorem knot_lost : ∃ s b d config,
    (build (bareSettings filling) bareTree).value = .ok s ∧
      (∀ op ∈ loadThenWrite knot, op.KeepsWatching) ∧ s.FreshEdits (loadThenWrite knot) ∧
      (s.after (loadThenWrite knot ++ [.poll, .process])).mind.bundle = some b ∧
      (s.after (loadThenWrite knot ++ [.poll, .process])).inFile? = some d ∧
      Config.accepted? d filling = some config ∧ b.config ≠ config := by
  obtain ⟨s, b, d, config, hs, hfresh, hb, hd, hconfig, hendless⟩ :=
    exists_writtenOnce knot (fun config => (Value.map config).isEndless false)
      (by decide +kernel)
  refine ⟨s, b, d, config, hs, keepsWatching_loadThenWrite knot, hfresh, hb, hd, hconfig, ?_⟩
  intro h
  obtain rfl := h
  have hends := ends_after hs _ b hb
  rw [hendless] at hends
  cases hends

end DecisionGate.Services
