import Mathlib.Data.List.Induction
import DecisionGate.Proofs.StoreRun

/-!
# Arming the watcher late

The first subscription since the watcher stopped makes it take the fingerprint of the file as it is
then, whichever version the document was read from. Where the document is another than the file's at
that moment and no signal waits, the difference escapes the watcher: a look at the file finds
nothing new. It stays so until the file is edited again, somebody reads it, or a signal is sent.
This is the only way for an edit to be lost, as long as every edit gives the file a new
fingerprint.
-/
namespace DecisionGate.Config

variable {ι σ : Type} {o : Origin} {tree tree' : Files.Tree} {d d' : Entries}

namespace Store

/-- The document is another than that of the file. -/
def Stale (s : Store ι) (tree : Files.Tree) : Prop :=
  ∃ d found, HoldsMapping s.toOrigin tree d ∧ s.document = some found ∧ found.entries ≠ d

/-- The document is another than that of the file, and the watcher takes the file as seen. -/
structure Missed (s : Store ι) (tree : Files.Tree) : Prop where
  watching : s.watching = true
  seen : s.fingerprint = printOf? tree s.path
  quiet : s.pending = []
  stale : s.Stale tree

/-- The document is another than that of the file, the watcher is off and no signal waits. -/
structure Late (s : Store ι) (tree : Files.Tree) : Prop where
  unwatched : s.watching = false
  quiet : s.pending = []
  stale : s.Stale tree

theorem Stale.congr {s s' : Store ι} (h : s.Stale tree)
    (horigin : s'.toOrigin = s.toOrigin) (hdocument : s'.document = s.document) :
    s'.Stale tree := by
  obtain ⟨d, found, hd, hfound, hne⟩ := h
  exact ⟨d, found, horigin ▸ hd, hdocument.trans hfound, hne⟩

theorem stale_iff {s s' : Store ι} (horigin : s'.toOrigin = s.toOrigin)
    (hdocument : s'.document = s.document) : s'.Stale tree ↔ s.Stale tree :=
  ⟨fun h => h.congr horigin.symm hdocument.symm, fun h => h.congr horigin hdocument⟩

theorem Missed.edited {s : Store ι} (h : s.Missed tree)
    (hfind : tree'.find s.path = tree.find s.path) : s.Missed tree' := by
  obtain ⟨d, found, hd, hfound, hne⟩ := h.stale
  exact
    { watching := h.watching
      seen := h.seen.trans (printOf?_congr hfind).symm
      quiet := h.quiet
      stale := ⟨d, found, (holdsMapping_congr hfind).mpr hd, hfound, hne⟩ }

theorem missed_congr {s : Store ι} (hfind : tree'.find s.path = tree.find s.path) :
    s.Missed tree' ↔ s.Missed tree :=
  ⟨fun h => h.edited hfind.symm, fun h => h.edited hfind⟩

/-- The document is the file's wherever the file was just kept. -/
theorem not_stale_keep {s : Store ι} (hd : HoldsMapping s.toOrigin tree d) :
    ¬ (s.keep d).2.Stale tree := by
  intro h
  obtain ⟨d', found, hd', hfound, hne⟩ := h
  obtain rfl := Option.some.inj hfound
  exact hne (hd.unique hd')

/-- A file that gives no document leaves nothing to be stale. -/
theorem not_stale_of_unread {s : Store ι}
    (h : ∀ d, (readDocument s.toOrigin tree).value ≠ .ok (some d)) : ¬ s.Stale tree := by
  intro hstale
  obtain ⟨d, found, hd, -⟩ := hstale
  exact h d (readDocument_of_holdsMapping hd)

theorem not_stale_load (s : Store ι) (tree : Files.Tree) : ¬ (s.load tree).value.2.Stale tree := by
  rw [load_value]
  rcases readDocument_cases s.toOrigin tree with ⟨f, -, hread⟩ | ⟨d, hd, hread⟩ | hread
  · rw [hread]
    exact not_stale_of_unread fun d hd => nomatch hread.symm.trans hd
  · rw [hread]
    exact not_stale_keep hd
  · rw [hread]
    exact not_stale_of_unread fun d hd => nomatch hread.symm.trans hd

theorem stale_get (s : Store ι) (tree : Files.Tree) :
    (s.get tree).value.2.Stale tree ↔ s.Stale tree := by
  unfold get
  cases hdocument : s.document with
  | some found => exact Iff.rfl
  | none =>
    refine iff_of_false (s.not_stale_load tree) fun hstale => ?_
    obtain ⟨d, found, -, hfound, -⟩ := hstale
    cases hdocument.symm.trans hfound

/-- What is given is what the file holds unless the document is stale. -/
theorem get_current_iff {s : Store ι} (hd : HoldsMapping s.toOrigin tree d) :
    (∃ found, (s.get tree).value.1 = .ok (some found) ∧ found.entries = d) ↔
      ¬ s.Stale tree := by
  have hread := readDocument_of_holdsMapping hd
  constructor
  · intro hcurrent hstale
    obtain ⟨found, hget, hfound⟩ := hcurrent
    obtain ⟨d', other, hd', hother, hne⟩ := hstale
    have hanswer : (s.get tree).value.1 = .ok (some other) := by rw [get, hother]; rfl
    obtain rfl : found = other :=
      Option.some.inj (Except.ok.inj (hget.symm.trans hanswer))
    exact hne (hfound.trans (hd.unique hd'))
  · intro hcurrent
    obtain ⟨found, hfound, hget, -⟩ := get_value hread fun found hfound => by
      by_contra hne
      exact hcurrent ⟨d, found, hd, hfound, hne⟩
    exact ⟨found, hget, hfound⟩

/-- The first subscription since the watcher stopped takes the file as seen. -/
theorem watch_seen {s : Store ι} (h : s.watching = false) (i : ι) (tree : Files.Tree) :
    (s.watch i tree).value.2.watching = true ∧
      ((s.watch i tree).value.2.fingerprint = printOf? tree s.path ∨
        printOf? tree s.path = none ∧ (s.watch i tree).value.2.fingerprint = s.fingerprint) := by
  simp only [watch, h, Bool.false_eq_true, if_false, printOf?]
  cases tree.fingerprint s.path with
  | error problem => exact ⟨rfl, .inr ⟨rfl, rfl⟩⟩
  | ok seen => exact ⟨rfl, .inl rfl⟩

/-- A further subscription leaves the watcher alone. -/
theorem watch_of_watching {s : Store ι} (h : s.watching = true) (i : ι) (tree : Files.Tree) :
    (s.watch i tree).value.2 = { s with subscribers := s.subscribers ++ [i] } := by
  simp [watch, h]

/-- A look at the file leaves no signal only if the file is as it was seen. -/
theorem seen_poll (s : Store ι) (tree : Files.Tree) (hquiet : (s.poll tree).2.pending = [])
    (hstale : (s.poll tree).2.Stale tree) :
    (s.poll tree).2.fingerprint = printOf? tree (s.poll tree).2.path := by
  obtain ⟨d, found, hd, -⟩ := hstale
  have hsome := hd.isSome_printOf?
  rcases s.poll_cases tree with ⟨hsame, -, hseen | hnone⟩ | ⟨-, -, hnew⟩
  · rw [hsame]
    exact hseen
  · rw [hsame, hnone] at hsome
    cases hsome
  · rw [hnew] at hquiet hsome
    simp [hsome] at hquiet

theorem missed_get (s : Store ι) (tree : Files.Tree) :
    (s.get tree).value.2.Missed tree ↔ s.Missed tree := by
  have hwatch := s.get_sameWatch tree
  have hwatching : (s.get tree).value.2.watching = s.watching := by
    unfold get
    split
    · rfl
    · rw [load_value]
      split <;> rfl
  constructor
  · intro h
    exact
      { watching := hwatching ▸ h.watching
        seen := by rw [← hwatch.fingerprint, ← hwatch.path]; exact h.seen
        quiet := hwatch.pending ▸ h.quiet
        stale := (s.stale_get tree).mp h.stale }
  · intro h
    exact
      { watching := hwatching.trans h.watching
        seen := by rw [hwatch.fingerprint, hwatch.path]; exact h.seen
        quiet := hwatch.pending.trans h.quiet
        stale := (s.stale_get tree).mpr h.stale }

theorem missed_poll (s : Store ι) (tree : Files.Tree) :
    (s.poll tree).2.Missed tree ↔ s.Missed tree := by
  rcases s.poll_cases tree with ⟨hsame, -⟩ | ⟨hseen, -, hnew⟩
  · rw [hsame]
  · refine iff_of_false (fun h => ?_) fun h => hseen h.seen
    -- Where the file is not the one seen last, the look queues a signal for it.
    obtain ⟨d, found, hd, -⟩ := h.stale
    have hquiet := h.quiet
    rw [hnew] at hd hquiet
    simp [hd.isSome_printOf?] at hquiet

theorem missed_watch (s : Store ι) (i : ι) (tree : Files.Tree) :
    (s.watch i tree).value.2.Missed tree ↔ s.Missed tree ∨ s.Late tree := by
  cases hwatching : s.watching with
  | true =>
    rw [s.watch_of_watching hwatching]
    constructor
    · intro h
      exact .inl ⟨h.watching, h.seen, h.quiet, h.stale⟩
    · intro h
      rcases h with h | h
      · exact ⟨h.watching, h.seen, h.quiet, h.stale⟩
      · exact absurd (hwatching.symm.trans h.unwatched) nofun
  | false =>
    obtain ⟨horigin, hdocument, -, hpending⟩ := s.watch_frame i tree
    obtain ⟨harmed, hseen⟩ := s.watch_seen hwatching i tree
    constructor
    · intro h
      exact .inr ⟨hwatching, hpending ▸ h.quiet, (stale_iff horigin hdocument).mp h.stale⟩
    · intro h
      rcases h with h | h
      · exact absurd (hwatching.symm.trans h.watching) nofun
      · obtain ⟨d, found, hd, -⟩ := h.stale
        refine ⟨harmed, ?_, hpending.trans h.quiet, (stale_iff horigin hdocument).mpr h.stale⟩
        rcases hseen with hseen | ⟨hnone, -⟩
        · rw [horigin]
          exact hseen
        · exact absurd hd.isSome_printOf? (by simp [hnone])

end Store

/-- The requests after which what escaped the watcher still does. -/
def Request.Calm : Request ι → Prop
  | .load | .unwatch | .notify _ => False
  | _ => True

section Serving
variable [BEq ι] {s : Store ι}

/-- Only a load brings the document up to the file. -/
theorem Store.stale_serve (s : Store ι) (tree : Files.Tree) (r : Request ι) :
    (s.serve tree r).Stale tree ↔ s.Stale tree ∧ r ≠ .load := by
  cases r with
  | load => exact iff_of_false (s.not_stale_load tree) fun h => h.2 rfl
  | get => exact (s.stale_get tree).trans (and_iff_left nofun).symm
  | watch i =>
    obtain ⟨horigin, hdocument, -⟩ := s.watch_frame i tree
    exact (Store.stale_iff horigin hdocument).trans (and_iff_left nofun).symm
  | poll =>
    have hsame : (s.poll tree).2.toOrigin = s.toOrigin ∧
        (s.poll tree).2.document = s.document := by
      rcases s.poll_cases tree with ⟨hsame, -⟩ | ⟨-, -, hnew⟩
      · rw [hsame]
        exact ⟨rfl, rfl⟩
      · rw [hnew]
        exact ⟨rfl, rfl⟩
    exact (Store.stale_iff hsame.1 hsame.2).trans (and_iff_left nofun).symm
  | unsubscribe i => exact (and_iff_left nofun).symm
  | unwatch => exact (and_iff_left nofun).symm
  | notify source => exact (and_iff_left nofun).symm

/-- What a request leaves missed was missed before, or the watcher was armed late. -/
theorem Store.missed_serve (s : Store ι) (tree : Files.Tree) (r : Request ι) :
    (s.serve tree r).Missed tree ↔
      s.Missed tree ∧ r.Calm ∨ (∃ i, r = .watch i) ∧ s.Late tree := by
  have hother : (∀ i, r ≠ .watch i) → r.Calm →
      (s.Missed tree ↔ s.Missed tree ∧ r.Calm ∨ (∃ i, r = .watch i) ∧ s.Late tree) := by
    intro hwatch hcalm
    simp [hwatch, hcalm]
  cases r with
  | load =>
    refine iff_of_false (fun h => s.not_stale_load tree h.stale) fun h => ?_
    simp [Request.Calm] at h
  | unwatch =>
    refine iff_of_false (fun h => nomatch h.watching) fun h => ?_
    simp [Request.Calm] at h
  | notify source =>
    refine iff_of_false (fun h => ?_) fun h => ?_
    · have hquiet : s.pending ++ [source] = [] := h.quiet
      simp at hquiet
    · simp [Request.Calm] at h
  | watch i =>
    refine (s.missed_watch i tree).trans ?_
    simp [Request.Calm]
  | get => exact (s.missed_get tree).trans (hother nofun trivial)
  | poll => exact (s.missed_poll tree).trans (hother nofun trivial)
  | unsubscribe i =>
    refine Iff.trans ⟨fun h => ?_, fun h => ?_⟩ (hother nofun trivial)
    · exact ⟨h.watching, h.seen, h.quiet, h.stale⟩
    · exact ⟨h.watching, h.seen, h.quiet, h.stale⟩

/-- The fingerprint after a request is the old one or the file's. -/
theorem Store.fingerprint_serve (s : Store ι) (tree : Files.Tree) (r : Request ι) :
    (s.serve tree r).fingerprint = s.fingerprint ∨
      (s.serve tree r).fingerprint = printOf? tree s.path := by
  cases r with
  | load => exact .inl (s.load_sameWatch tree).fingerprint
  | get => exact .inl (s.get_sameWatch tree).fingerprint
  | watch i =>
    show (s.watch i tree).value.2.fingerprint = _ ∨ (s.watch i tree).value.2.fingerprint = _
    cases hwatching : s.watching with
    | true =>
      rw [s.watch_of_watching hwatching]
      exact .inl rfl
    | false => exact (s.watch_seen hwatching i tree).2.symm.imp_left And.right
  | poll =>
    show (s.poll tree).2.fingerprint = _ ∨ (s.poll tree).2.fingerprint = _
    rcases s.poll_cases tree with ⟨hsame, -⟩ | ⟨-, -, hnew⟩
    · exact .inl (congrArg fingerprint hsame)
    · exact .inr (by rw [hnew])
  | unsubscribe i => exact .inl rfl
  | unwatch => exact .inl rfl
  | notify source => exact .inl rfl

theorem Store.serveAll_append (s : Store ι) (tree : Files.Tree) (rs rs' : List (Request ι)) :
    s.serveAll tree (rs ++ rs') = (s.serveAll tree rs).serveAll tree rs' := List.foldl_append ..

theorem Store.serveAll_cons (s : Store ι) (tree : Files.Tree) (r : Request ι)
    (rs : List (Request ι)) : s.serveAll tree (r :: rs) = (s.serve tree r).serveAll tree rs := rfl

end Serving

theorem Store.refresh_load (s : Store ι) (tree : Files.Tree) :
    (s.refresh tree).value.2 = (s.load tree).value.2 := by
  rw [refresh_value, load_value]
  cases (readDocument s.toOrigin tree).value with
  | error f => rfl
  | ok found => cases found <;> rfl

namespace Subscribers
variable [BEq ι] {p : Subscribers ι σ} {w : Scene σ}

theorem Polite.store_tell (h : p.Polite) (tree : Files.Tree) (c : Change) (is : List ι) (s : σ) :
    ∃ rs, p.store ((p.audience tree).tell c is s).value = (p.store s).serveAll tree rs := by
  induction is generalizing s with
  | nil => exact ⟨[], rfl⟩
  | cons i is ih =>
    obtain ⟨rs, hrs⟩ := h.store_react tree i c s
    obtain ⟨rs', hrs'⟩ := ih (p.react tree i c s).value.2
    refine ⟨rs ++ rs', ?_⟩
    rw [Store.serveAll_append, ← hrs]
    simp only [Audience.tell, Report.value_bind]
    split <;> exact hrs'

/-- To handle a signal is to load the document, whatever is asked of the store thereafter. -/
theorem Polite.store_handle (h : p.Polite) (tree : Files.Tree) (s : σ) :
    ∃ rs, p.store ((p.audience tree).handle tree s).value.2 =
      (p.store s).serveAll tree (.load :: rs) := by
  have hload : p.store (p.withStore s ((p.store s).refresh tree).value.2) =
      (p.store s).serve tree .load :=
    (h.store_withStore _ _).trans ((p.store s).refresh_load tree)
  have hstore : (p.audience tree).store s = p.store s := rfl
  simp only [Audience.handle, Report.value_bind, hstore]
  cases ((p.store s).refresh tree).value.1 with
  | error f => exact ⟨[], hload⟩
  | ok found =>
    cases found with
    | none => exact ⟨[], hload⟩
    | some c =>
      obtain ⟨rs, hrs⟩ := h.store_tell tree c
        ((p.store s).refresh tree).value.2.subscribers
        (p.withStore s ((p.store s).refresh tree).value.2)
      rw [hload] at hrs
      exact ⟨rs, hrs⟩

/-- Whatever the requests keep, and the taking of signals off the queue, the whole queue keeps. -/
theorem Polite.processUpTo_keeps (h : p.Polite) {I : Store ι → Prop}
    (hserve : ∀ st r, I st → I (st.serve tree r))
    (hpop : ∀ st signals, I st → I { st with pending := signals }) (fuel : Nat) {s : σ}
    (hs : I (p.store s)) : I (p.store ((p.audience tree).processUpTo tree fuel s).value.2) := by
  refine Audience.processUpTo_keeps (I := fun s => I (p.store s)) tree
    (fun s x rest _ hs => ?_) (fun s hs => ?_) fuel hs
  · show I (p.store (p.withStore s { p.store s with pending := rest }))
    rw [h.store_withStore]
    exact hpop _ rest hs
  · obtain ⟨rs, hrs⟩ := h.store_handle tree s
    rw [hrs]
    exact Store.serveAll_keeps hserve _ hs

theorem not_stale_serve {st : Store ι} (r : Request ι) (hst : ¬ st.Stale tree) :
    ¬ (st.serve tree r).Stale tree := fun hstale => hst ((st.stale_serve tree r).mp hstale).1

/-- After a signal was taken the document is the file's, if there is one in it. -/
theorem Polite.not_stale_handle (h : p.Polite) (tree : Files.Tree) (s : σ) :
    ¬ (p.store ((p.audience tree).handle tree s).value.2).Stale tree := by
  obtain ⟨rs, hrs⟩ := h.store_handle tree s
  have hload : ¬ ((p.store s).serve tree .load).Stale tree := (p.store s).not_stale_load tree
  rw [hrs, Store.serveAll_cons]
  exact Store.serveAll_keeps (I := fun st => ¬ st.Stale tree)
    (fun st r hst => not_stale_serve r hst) rs hload

theorem Polite.not_stale_process (h : p.Polite) (tree : Files.Tree) (more : Nat) {s : σ}
    (hpending : (p.store s).pending ≠ []) :
    ¬ (p.store ((p.audience tree).process tree more s).value.2).Stale tree := by
  obtain ⟨x, rest, hcons⟩ := List.exists_cons_of_ne_nil hpending
  have hfuel : (p.store s).pending.length + more = rest.length + more + 1 := by
    rw [hcons, List.length_cons]
    omega
  have hprocess : (p.audience tree).process tree more s =
      (p.audience tree).processUpTo tree (rest.length + more + 1) s :=
    congrArg (fun fuel => (p.audience tree).processUpTo tree fuel s) hfuel
  generalize hpopped : (p.audience tree).withStore s
    { (p.audience tree).store s with pending := rest } = popped
  have hhandled := h.not_stale_handle tree popped
  rw [hprocess, Audience.processUpTo_cons (a := p.audience tree) tree _ hcons, hpopped]
  cases hv : ((p.audience tree).handle tree popped).value with
  | mk r s' =>
    rw [hv] at hhandled
    cases r with
    | error f => exact hhandled
    | ok applied =>
      exact h.processUpTo_keeps (I := fun st => ¬ st.Stale tree)
        (fun st r hst => not_stale_serve r hst)
        (fun st signals hst hstale => hst (hstale.congr rfl rfl)) _ hhandled

theorem process_of_quiet (p : Subscribers ι σ) {w : Scene σ} (more : Nat)
    (hquiet : (p.store w.state).pending = []) : (p.step w (.process more)).state = w.state := by
  have hprocess : ((p.audience w.tree).process w.tree more w.state).value = (.ok 0, w.state) :=
    Audience.processUpTo_nil w.tree _ hquiet
  exact congrArg Prod.snd hprocess

theorem Polite.missed_process (h : p.Polite) (w : Scene σ) (more : Nat) :
    (p.store (p.step w (.process more)).state).Missed w.tree ↔
      (p.store w.state).Missed w.tree := by
  by_cases hquiet : (p.store w.state).pending = []
  · rw [p.process_of_quiet more hquiet]
  · exact iff_of_false (fun hmissed => h.not_stale_process w.tree more hquiet hmissed.stale)
      fun hmissed => hquiet hmissed.quiet

/-- The events after which what escaped the watcher still does. -/
def Calm (p : Subscribers ι σ) (w : Scene σ) : Event ι → Prop
  | .request r => r.Calm
  | .process _ => True
  | .edit e => (p.step w (.edit e)).tree.find (p.store w.state).path =
      w.tree.find (p.store w.state).path

/-- An edit that leaves the file alone or does not bring back the fingerprint seen last. -/
def Fresh (p : Subscribers ι σ) (w : Scene σ) (e : Files.Edit) : Prop :=
  p.Calm w (.edit e) ∨ ∀ fp, printOf? (p.step w (.edit e)).tree (p.store w.state).path = some fp →
    (p.store w.state).fingerprint ≠ some fp

theorem missed_edit {e : Files.Edit} (hfresh : p.Fresh w e) :
    (p.store w.state).Missed (p.step w (.edit e)).tree ↔
      (p.store w.state).Missed w.tree ∧ p.Calm w (.edit e) := by
  by_cases hcalm : p.Calm w (.edit e)
  · rw [and_iff_left hcalm]
    exact Store.missed_congr hcalm
  · refine iff_of_false (fun hmissed => ?_) fun h => hcalm h.2
    obtain ⟨d, found, hd, -⟩ := hmissed.stale
    obtain ⟨fp, hfp⟩ := Option.isSome_iff_exists.mp hd.isSome_printOf?
    exact hfresh.resolve_left hcalm fp hfp (hmissed.seen.trans hfp)

theorem Polite.missed_step (h : p.Polite) (w : Scene σ) (e : Event ι)
    (hfresh : ∀ e', e = .edit e' → p.Fresh w e') :
    (p.store (p.step w e).state).Missed (p.step w e).tree ↔
      (p.store w.state).Missed w.tree ∧ p.Calm w e ∨
        (∃ i, e = .request (.watch i)) ∧ (p.store w.state).Late w.tree := by
  cases e with
  | request r =>
    have hstore : p.store (p.step w (.request r)).state = (p.store w.state).serve w.tree r :=
      h.store_withStore _ _
    have htree : (p.step w (.request r)).tree = w.tree := rfl
    rw [hstore, htree, Store.missed_serve]
    simp [Calm]
  | process more =>
    refine (h.missed_process w more).trans ?_
    simp [Calm]
  | edit e =>
    refine (missed_edit (hfresh e rfl)).trans ?_
    simp

/-- The file stays where it is, and the fingerprint seen last is the old one or the file's. -/
theorem Polite.watcher_step (h : p.Polite) (w : Scene σ) (e : Event ι) :
    (p.store (p.step w e).state).toOrigin = (p.store w.state).toOrigin ∧
      ((p.store (p.step w e).state).fingerprint = (p.store w.state).fingerprint ∨
        (p.store (p.step w e).state).fingerprint = printOf? w.tree (p.store w.state).path) := by
  cases e with
  | request r =>
    have hstore : p.store (p.step w (.request r)).state = (p.store w.state).serve w.tree r :=
      h.store_withStore _ _
    rw [hstore]
    exact ⟨Store.origin_serve _ w.tree r, Store.fingerprint_serve _ w.tree r⟩
  | process more =>
    refine h.processUpTo_keeps (I := fun st => st.toOrigin = (p.store w.state).toOrigin ∧
      (st.fingerprint = (p.store w.state).fingerprint ∨
        st.fingerprint = printOf? w.tree (p.store w.state).path)) (fun st r hst => ?_)
      (fun st signals hst => hst) _ ⟨rfl, .inl rfl⟩
    obtain ⟨horigin, hprint⟩ := hst
    refine ⟨(st.origin_serve w.tree r).trans horigin, ?_⟩
    rcases st.fingerprint_serve w.tree r with hsame | hfile
    · rw [hsame]
      exact hprint
    · rw [hfile, horigin]
      exact .inr rfl
  | edit e => exact ⟨rfl, .inl rfl⟩

theorem Polite.origin_after (h : p.Polite) (w : Scene σ) (es : List (Event ι)) :
    (p.store (p.after w es).state).toOrigin = (p.store w.state).toOrigin := by
  induction es using List.reverseRecOn with
  | nil => rfl
  | append_singleton es e ih =>
    rw [after_concat]
    exact (h.watcher_step _ e).1.trans ih

/-- Every edit leaves the file alone, takes it away, or gives it a fingerprint that it never had
before. -/
def FreshEdits (p : Subscribers ι σ) (w : Scene σ) (es : List (Event ι)) : Prop :=
  ∀ before e since, es = before ++ .edit e :: since →
    p.Calm (p.after w before) (.edit e) ∨
      ∀ fp, printOf? (p.after w (before ++ [.edit e])).tree (p.store w.state).path = some fp →
        ∀ earlier, earlier <+: before →
          printOf? (p.after w earlier).tree (p.store w.state).path ≠ some fp

theorem FreshEdits.of_append {es more : List (Event ι)} (h : p.FreshEdits w (es ++ more)) :
    p.FreshEdits w es := by
  intro before e since hsplit
  exact h before e (since ++ more) (by simp [hsplit])

/-- The fingerprint that the watcher saw last is one that the file had. -/
theorem Polite.seen_after (h : p.Polite) (hstart : (p.store w.state).fingerprint = none)
    (es : List (Event ι)) {fp : Files.Fingerprint}
    (hfp : (p.store (p.after w es).state).fingerprint = some fp) :
    ∃ earlier, earlier <+: es ∧
      printOf? (p.after w earlier).tree (p.store w.state).path = some fp := by
  induction es using List.reverseRecOn with
  | nil => exact absurd (hstart.symm.trans hfp) nofun
  | append_singleton es e ih =>
    rw [after_concat] at hfp
    rcases (h.watcher_step (p.after w es) e).2 with hsame | hfile
    · obtain ⟨earlier, hbegins, hearlier⟩ := ih (hsame.symm.trans hfp)
      exact ⟨earlier, hbegins.trans (List.prefix_append es [e]), hearlier⟩
    · rw [h.origin_after] at hfile
      exact ⟨es, List.prefix_append es [e], hfile.symm.trans hfp⟩

theorem Polite.fresh_after (h : p.Polite) (hstart : (p.store w.state).fingerprint = none)
    {es : List (Event ι)} {e : Event ι} (hfresh : p.FreshEdits w (es ++ [e])) :
    ∀ e', e = .edit e' → p.Fresh (p.after w es) e' := by
  intro e' he
  subst he
  refine (hfresh es e' [] rfl).imp_right fun hnew fp hfp hlast => ?_
  obtain ⟨earlier, hbegins, hearlier⟩ := h.seen_after hstart es hlast
  rw [h.origin_after, ← after_concat] at hfp
  exact hnew fp hfp earlier hbegins hearlier

/-- The watcher was armed late, and only calm events came since. -/
inductive ArmedLate (p : Subscribers ι σ) (w : Scene σ) : List (Event ι) → Prop
  | armed {before : List (Event ι)} (i : ι) :
      (p.store (p.after w before).state).Late (p.after w before).tree →
      ArmedLate p w (before ++ [.request (.watch i)])
  | calm {es : List (Event ι)} {e : Event ι} : ArmedLate p w es → p.Calm (p.after w es) e →
      ArmedLate p w (es ++ [e])

/-- What escapes the watcher is what had changed when it was armed late. -/
theorem Polite.missed_after (h : p.Polite) (hnew : p.store w.state = { toOrigin := o })
    {es : List (Event ι)} (hfresh : p.FreshEdits w es) :
    (p.store (p.after w es).state).Missed (p.after w es).tree ↔ p.ArmedLate w es := by
  have hstart : (p.store w.state).fingerprint = none := by rw [hnew]
  constructor
  · intro hmissed
    induction es using List.reverseRecOn with
    | nil =>
      have hwatching := hmissed.watching
      rw [after_nil, hnew] at hwatching
      cases hwatching
    | append_singleton es e ih =>
      rw [after_concat] at hmissed
      rcases (h.missed_step _ e (h.fresh_after hstart hfresh)).mp hmissed with
        ⟨hbefore, hcalm⟩ | ⟨⟨i, rfl⟩, hlate⟩
      · exact .calm (ih hfresh.of_append hbefore) hcalm
      · exact .armed i hlate
  · intro harmed
    induction harmed with
    | armed i hlate =>
      rw [after_concat]
      exact (h.missed_step _ _ (h.fresh_after hstart hfresh)).mpr (.inr ⟨⟨i, rfl⟩, hlate⟩)
    | calm _ hcalm ih =>
      rw [after_concat]
      exact (h.missed_step _ _ (h.fresh_after hstart hfresh)).mpr
        (.inl ⟨ih hfresh.of_append, hcalm⟩)

/-- After a look at the file and the taking of the queue the document is stale only if that had
been missed before. -/
theorem Polite.stale_poll_process (h : p.Polite) (w : Scene σ) (more : Nat)
    (hwatching :
      (p.store (p.after w [.request .poll, .process more]).state).watching = true) :
    (p.store (p.after w [.request .poll, .process more]).state).Stale w.tree ↔
      (p.store w.state).Missed w.tree := by
  have hafter : p.after w [.request .poll, .process more] =
      p.step (p.step w (.request .poll)) (.process more) := rfl
  have htree : (p.step w (.request .poll)).tree = w.tree := rfl
  have hstore : p.store (p.step w (.request .poll)).state = ((p.store w.state).poll w.tree).2 :=
    h.store_withStore _ _
  have hpolled := (p.store w.state).missed_poll w.tree
  rw [← hstore] at hpolled
  rw [hafter] at hwatching ⊢
  constructor
  · intro hstale
    have hquiet : (p.store (p.step w (.request .poll)).state).pending = [] := by
      by_contra hpending
      exact h.not_stale_process w.tree more hpending hstale
    rw [p.process_of_quiet more hquiet] at hstale hwatching
    refine hpolled.mp ⟨hwatching, ?_, hquiet, hstale⟩
    rw [hstore] at hquiet hstale ⊢
    exact Store.seen_poll _ w.tree hquiet hstale
  · intro hmissed
    exact ((h.missed_process (p.step w (.request .poll)) more).mpr (hpolled.mpr hmissed)).stale

/-- In every run whose edits are fresh, with a look at the file and the taking of the queue at its
end: an armed watcher whose file holds a mapping has it given exactly if it was not armed late or
something more than calm events came since. -/
theorem Polite.poll_process_current_iff (h : p.Polite) (hnew : p.store w.state = { toOrigin := o })
    {es : List (Event ι)} (hfresh : p.FreshEdits w es) (more : Nat)
    (hwatching :
      (p.store (p.after w (es ++ [.request .poll, .process more])).state).watching = true)
    (hd : HoldsMapping o (p.after w (es ++ [.request .poll, .process more])).tree d) :
    (∃ found, ((p.store (p.after w (es ++ [.request .poll, .process more])).state).get
          (p.after w (es ++ [.request .poll, .process more])).tree).value.1 = .ok (some found) ∧
        found.entries = d) ↔
      ¬ p.ArmedLate w es := by
  have horigin :
      (p.store (p.after w (es ++ [.request .poll, .process more])).state).toOrigin = o :=
    (h.origin_after _ _).trans (congrArg Store.toOrigin hnew)
  rw [← horigin] at hd
  refine (Store.get_current_iff hd).trans (not_congr ?_)
  rw [after_append] at hwatching ⊢
  exact (h.stale_poll_process _ more hwatching).trans (h.missed_after hnew hfresh)

theorem tree_after (p : Subscribers ι σ) (w : Scene σ) {es : List (Event ι)}
    (hes : ∀ e, .edit e ∉ es) : (p.after w es).tree = w.tree := by
  induction es using List.reverseRecOn with
  | nil => rfl
  | append_singleton es e ih =>
    have hbefore := ih fun e' he' => hes e' (List.mem_append_left _ he')
    rw [after_concat]
    cases e with
    | edit e => exact absurd (by simp) (hes e)
    | request r => exact hbefore
    | process more => exact hbefore

/-- Only the last event has to be looked at. -/
theorem FreshEdits.concat {es : List (Event ι)} (h : p.FreshEdits w es) (e : Event ι)
    (hlast : ∀ e', e = .edit e' →
      ∀ fp, printOf? (p.after w (es ++ [e])).tree (p.store w.state).path = some fp →
        ∀ earlier, earlier <+: es →
          printOf? (p.after w earlier).tree (p.store w.state).path ≠ some fp) :
    p.FreshEdits w (es ++ [e]) := by
  intro before e' since hsplit
  rcases List.eq_nil_or_concat since with rfl | ⟨since, last, rfl⟩
  · obtain ⟨rfl, he⟩ := List.append_inj' hsplit rfl
    obtain rfl : e = .edit e' := by simpa using he
    exact .inr (hlast e' rfl)
  · rw [List.concat_eq_append, ← List.cons_append, ← List.append_assoc] at hsplit
    exact h before e' since (List.append_inj' hsplit rfl).1

def oneEntry : List Nat := Utf8.encode "a: 1\n"

def twoEntries : List Nat := Utf8.encode "a: 1\nb: 2\n"

/-- A new store, with one entry in its file. -/
def unread : Scene (Store Bool) := ⟨{ path := Config.queued.store.path }, treeOf oneEntry⟩

/-- Writes a second entry into the file. -/
def rewriting : Files.Edit := .write Config.queued.store.path twoEntries none

theorem freshEdits_rewriting (es : List (Event Bool)) (hes : ∀ e, .edit e ∉ es) :
    bystanders.FreshEdits unread (es ++ [.edit rewriting]) := by
  have hnone : bystanders.FreshEdits unread es := by
    intro before e since hsplit
    exact absurd (by simp [hsplit]) (hes e)
  refine hnone.concat _ fun e he fp hfp earlier hbegins hearlier => ?_
  rw [after_concat] at hfp
  have hwritten : (bystanders.step (bystanders.after unread es) (.edit rewriting)).tree =
      (rewriting.apply (treeOf oneEntry)).toOption.getD (treeOf oneEntry) := by
    simp only [step, bystanders.tree_after unread hes]
    rfl
  rw [hwritten] at hfp
  rw [bystanders.tree_after unread fun e he => hes e (hbegins.subset he)] at hearlier
  have hprints : printOf? ((rewriting.apply (treeOf oneEntry)).toOption.getD (treeOf oneEntry))
      unread.state.path ≠ printOf? (treeOf oneEntry) unread.state.path := by decide +kernel
  exact hprints (hfp.trans hearlier.symm)

/-- How many entries the file holds, and how many the document has that is given. -/
def countEntries (w : Scene (Store Bool)) : Option Nat × Option Nat :=
  ((readDocument w.state.toOrigin w.tree).value.toOption.join.map List.length,
    (w.state.get w.tree).value.1.toOption.join.map fun found => found.entries.length)

theorem exists_of_countEntries {w : Scene (Store Bool)} {n k : Nat}
    (h : countEntries w = (some n, some k)) : ∃ d found, HoldsMapping w.state.toOrigin w.tree d ∧
      (w.state.get w.tree).value.1 = .ok (some found) ∧ d.length = n ∧
      found.entries.length = k := by
  obtain ⟨hfile, hdocument⟩ := Prod.mk.inj h
  obtain ⟨d, hd, hn⟩ := Option.map_eq_some_iff.mp hfile
  obtain ⟨found, hfound, hk⟩ := Option.map_eq_some_iff.mp hdocument
  refine ⟨d, found, holdsMapping_of_read hd, ?_, hn, hk⟩
  cases hget : (w.state.get w.tree).value.1 with
  | error f => rw [hget] at hfound; cases hfound
  | ok given =>
    rw [hget] at hfound
    exact congrArg Except.ok hfound

/-- The end of a run, once the watcher looked at the file and the queue was taken. -/
def settled (es : List (Event Bool)) : Scene (Store Bool) :=
  bystanders.after unread (es ++ [.request .poll, .process 0])

theorem origin_settled (es : List (Event Bool)) :
    (settled es).state.toOrigin = Config.queued.store.toOrigin := by
  have horigin := bystanders_quiet.polite.origin_after unread (es ++ [.request .poll, .process 0])
  exact horigin

/-- The watcher is armed before the file is written. -/
def armedFirst : List (Event Bool) := [.request (.watch true), .request .load, .edit rewriting]

theorem poll_process_current_armed :
    bystanders.FreshEdits unread armedFirst ∧ (settled armedFirst).state.watching = true ∧
      ∃ d found, HoldsMapping Config.queued.store.toOrigin (settled armedFirst).tree d ∧
        ((settled armedFirst).state.get (settled armedFirst).tree).value.1 = .ok (some found) ∧
        found.entries = d := by
  have hfresh : bystanders.FreshEdits unread armedFirst :=
    freshEdits_rewriting [.request (.watch true), .request .load] (by simp)
  have hwatching : (settled armedFirst).state.watching = true := by decide +kernel
  have hcounts : countEntries (settled armedFirst) = (some 2, some 2) := by decide +kernel
  have hunseen : (bystanders.after unread armedFirst).state.fingerprint ≠
      printOf? (bystanders.after unread armedFirst).tree Config.queued.store.path := by
    decide +kernel
  obtain ⟨d, -, hd, -⟩ := exists_of_countEntries hcounts
  rw [origin_settled] at hd
  have hnew : bystanders.store unread.state = { toOrigin := Config.queued.store.toOrigin } := rfl
  have hlate : ¬ bystanders.ArmedLate unread armedFirst := by
    intro hlate
    have hseen := ((bystanders_quiet.polite.missed_after hnew hfresh).mpr hlate).seen
    rw [bystanders_quiet.polite.origin_after] at hseen
    exact hunseen hseen
  have hcurrent := bystanders_quiet.polite.poll_process_current_iff (d := d) hnew hfresh 0
  rw [store_bystanders, ← settled] at hcurrent
  obtain ⟨found, hget, hfound⟩ := (hcurrent hwatching hd).mpr hlate
  exact ⟨hfresh, hwatching, d, found, hd, hget, hfound⟩

/-- The file is written after it was read, and the watcher is armed then. -/
def armedAfter : List (Event Bool) := [.request .load, .edit rewriting, .request (.watch true)]

/-- The document keeps its one entry, and nobody hears of the second one in the file. -/
theorem armedAfter_misses :
    bystanders.FreshEdits unread armedAfter ∧ (settled armedAfter).state.watching = true ∧
      ∃ d found, HoldsMapping Config.queued.store.toOrigin (settled armedAfter).tree d ∧
        ((settled armedAfter).state.get (settled armedAfter).tree).value.1 = .ok (some found) ∧
        found.entries ≠ d := by
  have hwritten : bystanders.FreshEdits unread [.request .load, .edit rewriting] :=
    freshEdits_rewriting [.request .load] (by simp)
  have hfresh : bystanders.FreshEdits unread armedAfter :=
    hwritten.concat (.request (.watch true)) nofun
  have hwatching : (settled armedAfter).state.watching = true := by decide +kernel
  have hcounts : countEntries (settled armedAfter) = (some 2, some 1) := by decide +kernel
  obtain ⟨d, found, hd, hget, hn, hk⟩ := exists_of_countEntries hcounts
  rw [origin_settled] at hd
  refine ⟨hfresh, hwatching, d, found, hd, hget, fun hsame => ?_⟩
  rw [hsame, hn] at hk
  cases hk

end Subscribers

end DecisionGate.Config
