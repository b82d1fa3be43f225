import Mathlib.Data.List.Chain
import DecisionGate.Proofs.StoreRun

/-!
# Every change is told once

Signals leave the queue in the order in which they came. One that finds a document tells everybody
who is subscribed at that moment of it, once for each subscription and in the order of these,
whether or not the others came through. The new document is the one that the store holds then, and
the old one is the document that it held before, so that the changes follow one upon the other as
long as nobody else reads the file. The taking of the queue counts the documents; it gives no count
only where reading the file stops, and then the first signal is lost and the others wait.
-/
namespace DecisionGate.Config

/-- A call of a subscriber, with the document that the store held at that moment. -/
structure Notice (ι : Type) where
  subscriber : ι
  change : Change
  cached : Option Document

/-- The same scene without the calls that were written down. -/
def Scene.unobserved {ι σ : Type} (w : Scene (σ × List (Notice ι))) : Scene σ :=
  ⟨w.state.1, w.tree⟩

/-- Changes that follow one upon the other, from one document of the store to another. -/
def Linked : Option Document → List Change → Option Document → Prop
  | d, [], d' => d = d'
  | d, c :: cs, d' => c.old = d ∧ Linked (some c.new) cs d'

/-- Of two calls in succession the second is of the same change as the first, or of a later one; and
a later one comes from the document that the first one brought, unless others were read since. The
serial number of a document counts those that were read before it. -/
def Follows {ι : Type} (n m : Notice ι) : Prop :=
  m.change = n.change ∨ n.change.new.serial < m.change.new.serial ∧
    (m.change.new.serial = n.change.new.serial + 1 → m.change.old = some n.change.new)

variable {ι σ : Type}

namespace Subscribers

/-- The same subscribers, with every call written down. -/
def observed (p : Subscribers ι σ) : Subscribers ι (σ × List (Notice ι)) where
  store s := p.store s.1
  withStore s st := (p.withStore s.1 st, s.2)
  react tree i c s := do
    let (ok, s') ← p.react tree i c s.1
    pure (ok, s', s.2 ++ [⟨i, c, (p.store s.1).document⟩])

/-- The calls of everybody who is subscribed, for one change after the other. -/
def calls (subscribers : List ι) (changes : List Change) : List (Notice ι) :=
  changes.flatMap fun c => subscribers.map fun i => ⟨i, c, some c.new⟩

theorem calls_nil (subscribers : List ι) : calls subscribers [] = [] := rfl

theorem calls_cons (subscribers : List ι) (c : Change) (changes : List Change) :
    calls subscribers (c :: changes) =
      (subscribers.map fun i => ⟨i, c, some c.new⟩) ++ calls subscribers changes := rfl

/-- From a state to another one by changes that are all told. -/
structure Delivery (p : Subscribers ι σ) (tree : Files.Tree) (s : σ × List (Notice ι))
    (changes : List Change) (s' : σ × List (Notice ι)) : Prop where
  emptied : (p.store s'.1).pending = []
  told : s'.2 = s.2 ++ calls (p.store s.1).subscribers changes
  linked : Linked (p.store s.1).document changes (p.store s'.1).document
  read : ∀ c ∈ changes, HoldsMapping (p.store s.1).toOrigin tree c.new.entries
  complete : (∃ d, HoldsMapping (p.store s.1).toOrigin tree d) →
    changes.length = (p.store s.1).pending.length

/-- The taking of the queue gives the number of the changes, and all of them are told. -/
def Delivers (p : Subscribers ι σ) (w : Scene (σ × List (Notice ι))) (more : Nat) : Prop :=
  ∃ changes s', ((p.observed.audience w.tree).process w.tree more w.state).value =
      (.ok changes.length, s') ∧
    p.Delivery w.tree w.state changes s'

variable {p : Subscribers ι σ} {tree : Files.Tree} {path : Files.Path} {s : σ}
  {l : List (Notice ι)} {d : Entries}

theorem Quiet.observed (h : p.Quiet) : p.observed.Quiet where
  store_withStore s st := h.store_withStore s.1 st
  withStore_store s := Prod.ext (h.withStore_store s.1) rfl
  withStore_withStore s st st' := Prod.ext (h.withStore_withStore s.1 st st') rfl
  store_react tree i c s := h.store_react tree i c s.1

/-- The change that a mapping in the file makes. -/
def changeTo (st : Store ι) (d : Entries) : Change := ⟨(st.keep d).1, st.document⟩

theorem Quiet.tell_observed (h : p.Quiet) (c : Change) (is : List ι) :
    ∃ s', ((p.observed.audience tree).tell c is (s, l)).value =
        (s', l ++ is.map fun i => ⟨i, c, (p.store s).document⟩) ∧
      p.store s' = p.store s := by
  induction is generalizing s l with
  | nil => exact ⟨s, by simp [Audience.tell], rfl⟩
  | cons i is ih =>
    have hstore := h.store_react tree i c s
    obtain ⟨s', hrest, hsame⟩ := ih (s := (p.react tree i c s).value.2)
      (l := l ++ [⟨i, c, (p.store s).document⟩])
    refine ⟨s', ?_, hsame.trans hstore⟩
    rw [hstore] at hrest
    have hone : ((p.observed.audience tree).react i c (s, l)).value =
        ((p.react tree i c s).value.1, (p.react tree i c s).value.2,
          l ++ [⟨i, c, (p.store s).document⟩]) := rfl
    simp only [Audience.tell, Report.value_bind, hone]
    split <;> simp [hrest]

/-- A signal that finds a mapping is told to everybody. -/
theorem Quiet.handle_observed (h : p.Quiet) (hd : HoldsMapping (p.store s).toOrigin tree d) :
    ∃ s', ((p.observed.audience tree).handle tree (s, l)).value =
        (.ok true, s', l ++ calls (p.store s).subscribers [changeTo (p.store s) d]) ∧
      p.store s' = ((p.store s).keep d).2 := by
  obtain ⟨s', htell, hsame⟩ := h.tell_observed (l := l)
    (s := p.withStore s ((p.store s).keep d).2) (changeTo (p.store s) d) (p.store s).subscribers
  rw [h.store_withStore] at htell hsame
  refine ⟨s', ?_, hsame⟩
  rw [Audience.handle_of_mapping (a := p.observed.audience tree) (s := (s, l)) hd]
  refine Prod.ext rfl (htell.trans ?_)
  rw [calls_cons, calls_nil, List.append_nil]
  rfl

/-- The change of the first signal goes before those of the others. -/
theorem Delivery.cons {s₁ : σ} {s' : σ × List (Notice ι)} {changes : List Change} {x : String}
    {rest : List String} (hd : HoldsMapping (p.store s).toOrigin tree d)
    (hpending : (p.store s).pending = x :: rest)
    (hs₁ : p.store s₁ = { ((p.store s).keep d).2 with pending := rest })
    (h : p.Delivery tree (s₁, l ++ calls (p.store s).subscribers [changeTo (p.store s) d])
      changes s') :
    p.Delivery tree (s, l) (changeTo (p.store s) d :: changes) s' := by
  obtain ⟨hemptied, htold, hlinked, hread, hcomplete⟩ := h
  rw [hs₁] at htold hlinked hread hcomplete
  refine ⟨hemptied, ?_, ⟨rfl, hlinked⟩, ?_, ?_⟩
  · rw [htold, calls_cons, calls_cons, calls_nil, List.append_nil, List.append_assoc]
    rfl
  · intro c hc
    rcases List.mem_cons.mp hc with rfl | hc
    · exact hd
    · exact hread c hc
  · intro hholds
    rw [List.length_cons, hcomplete hholds, hpending, List.length_cons]

/-- The taking of a queue that finds a mapping each time. -/
theorem Quiet.processUpTo_observed (h : p.Quiet) (fuel : Nat) {signals : List String}
    (hpending : (p.store s).pending = signals) (hfuel : signals.length ≤ fuel)
    (hd : HoldsMapping (p.store s).toOrigin tree d) :
    ∃ changes s', ((p.observed.audience tree).processUpTo tree fuel (s, l)).value =
        (.ok changes.length, s') ∧
      p.Delivery tree (s, l) changes s' := by
  induction signals generalizing fuel s l with
  | nil =>
    refine ⟨[], (s, l), Audience.processUpTo_nil tree fuel hpending, ?_⟩
    exact
      { emptied := hpending
        told := (List.append_nil l).symm
        linked := rfl
        read := nofun
        complete := fun _ => (congrArg List.length hpending).symm }
  | cons x rest ih =>
    cases fuel with
    | zero => exact absurd hfuel (Nat.not_succ_le_zero _)
    | succ fuel =>
      obtain ⟨popped, hpopped⟩ : ∃ popped,
          popped = p.withStore s { p.store s with pending := rest } := ⟨_, rfl⟩
      have hstore : p.store popped = { p.store s with pending := rest } := by
        rw [hpopped, h.store_withStore]
      have hpop : (p.observed.audience tree).withStore (s, l)
          { (p.observed.audience tree).store (s, l) with pending := rest } = (popped, l) := by
        rw [hpopped]
        rfl
      obtain ⟨s₁, hhandle, hs₁⟩ := h.handle_observed (s := popped) (l := l)
        (d := d) (by rwa [hstore])
      rw [hstore] at hhandle hs₁
      obtain ⟨changes, s', hprocess, hrest⟩ := ih (s := s₁)
        (l := l ++ calls (p.store s).subscribers [changeTo (p.store s) d]) fuel (by rw [hs₁]; rfl)
        (Nat.le_of_succ_le_succ hfuel) (by rw [hs₁]; exact hd)
      refine ⟨changeTo (p.store s) d :: changes, s', ?_, hrest.cons hd hpending hs₁⟩
      have hhandle' : ((p.observed.audience tree).handle tree (popped, l)).value = (.ok true, s₁,
          l ++ calls (p.store s).subscribers [changeTo (p.store s) d]) := hhandle
      rw [Audience.processUpTo_cons tree fuel hpending, hpop, hhandle']
      simp only [hprocess, Except.map, Bool.toNat_true, List.length_cons]

/-- Without a change the queue is emptied and nothing else happens. -/
theorem Delivery.of_empty {s' : σ × List (Notice ι)}
    (hs' : p.store s'.1 = { p.store s with pending := [] }) (hlog : s'.2 = l)
    (hcomplete : (∃ d, HoldsMapping (p.store s).toOrigin tree d) → (p.store s).pending = []) :
    p.Delivery tree (s, l) [] s' where
  emptied := by rw [hs']
  told := hlog.trans (List.append_nil l).symm
  linked := by rw [hs']; rfl
  read := nofun
  complete hholds := (congrArg List.length (hcomplete hholds)).symm

theorem delivers_of_nil {w : Scene (σ × List (Notice ι))} (more : Nat)
    (hpending : (p.store w.state.1).pending = []) : p.Delivers w more := by
  refine ⟨[], w.state, Audience.processUpTo_nil w.tree _ hpending, ?_⟩
  refine Delivery.of_empty ?_ rfl fun _ => hpending
  rw [← hpending]

/-- The taking of the queue goes as it should exactly when there is nothing to take or reading the
file does not stop. -/
theorem Quiet.delivers_iff_reads (h : p.Quiet) (w : Scene (σ × List (Notice ι))) (more : Nat) :
    p.Delivers w more ↔ (p.store w.state.1).pending = [] ∨
      ¬ ∃ f, Stops (p.store w.state.1).toOrigin w.tree f := by
  have hlawful := h.observed.lawful w.tree
  constructor
  · intro hdelivers
    obtain ⟨changes, s', hprocess, -⟩ := hdelivers
    exact (hlawful.process_answers_iff more).mp ⟨changes.length, congrArg Prod.fst hprocess⟩
  · intro hcase
    rcases hcase with hpending | hstops
    · exact delivers_of_nil more hpending
    · rcases readDocument_cases (p.store w.state.1).toOrigin w.tree with
        ⟨f, hf, -⟩ | ⟨d, hd, -⟩ | hnone
      · exact absurd ⟨f, hf⟩ hstops
      · exact h.processUpTo_observed _ rfl (Nat.le_add_right _ more) hd
      · have hprocess := hlawful.processUpTo_of_none (s := w.state) _ rfl
          (Nat.le_add_right _ more) hnone
        refine ⟨[], _, hprocess, Delivery.of_empty (h.store_withStore _ _) rfl fun hholds => ?_⟩
        exact absurd hholds (readDocument_eq_none_iff.mp hnone).2

theorem Quiet.store_tell (h : p.Quiet) (c : Change) (is : List ι) :
    p.store ((p.audience tree).tell c is s).value = p.store s := by
  induction is generalizing s with
  | nil => rfl
  | cons i is ih =>
    have hrest := (ih (s := (p.react tree i c s).value.2)).trans (h.store_react tree i c s)
    simp only [Audience.tell, Report.value_bind]
    split <;> exact hrest

/-- Handling a signal does nothing to the store but read its file. -/
theorem Quiet.store_handle (h : p.Quiet) (s : σ) :
    p.store ((p.audience tree).handle tree s).value.2 = ((p.store s).refresh tree).value.2 := by
  have hrefreshed := h.store_withStore s ((p.store s).refresh tree).value.2
  have hstore : (p.audience tree).store s = p.store s := rfl
  simp only [Audience.handle, Report.value_bind, hstore]
  cases ((p.store s).refresh tree).value.1 with
  | error f => exact hrefreshed
  | ok found =>
    cases found with
    | none => exact hrefreshed
    | some c => exact (h.store_tell c _).trans hrefreshed

theorem Quiet.pending_handle (h : p.Quiet) (s : σ) :
    (p.store ((p.audience tree).handle tree s).value.2).pending = (p.store s).pending := by
  rw [h.store_handle, Store.refresh_value]
  cases (readDocument (p.store s).toOrigin tree).value with
  | error f => rfl
  | ok found => cases found <;> rfl

/-- Signals are taken from the front. -/
theorem Quiet.pending_process (h : p.Quiet) (tree : Files.Tree) (more : Nat) (s : σ) :
    (p.store ((p.audience tree).process tree more s).value.2).pending <:+ (p.store s).pending := by
  refine Audience.processUpTo_keeps (I := fun s' => (p.store s').pending <:+ (p.store s).pending)
    tree ?_ ?_ _ (List.suffix_refl _)
  · intro s' x rest hpending hsuffix
    have hpending' : (p.store s').pending = x :: rest := hpending
    rw [hpending'] at hsuffix
    show (p.store (p.withStore s' { p.store s' with pending := rest })).pending <:+ _
    rw [h.store_withStore]
    exact (List.suffix_cons x rest).trans hsuffix
  · intro s' hsuffix
    rwa [h.pending_handle]

section Running
variable [BEq ι]

/-- The signals that an event puts into the queue. -/
def queuedBy (p : Subscribers ι σ) (w : Scene σ) : Event ι → List String
  | .request (.notify source) => [source]
  | .request .poll =>
    match ((p.store w.state).poll w.tree).1 with
    | .ok true => ["watcher"]
    | _ => []
  | _ => []

/-- The signals that are no longer in the queue when it was taken. -/
def takenBy (p : Subscribers ι σ) (w : Scene σ) : Event ι → List String
  | .process more =>
    let waiting := (p.store w.state).pending
    let left := (p.store (p.step w (.process more)).state).pending
    waiting.take (waiting.length - left.length)
  | _ => []

/-- What all events of a run put into the queue. -/
def queued (p : Subscribers ι σ) : Scene σ → List (Event ι) → List String
  | _, [] => []
  | w, e :: es => p.queuedBy w e ++ p.queued (p.step w e) es

/-- What all takings of the queue of a run took from it. -/
def taken (p : Subscribers ι σ) : Scene σ → List (Event ι) → List String
  | _, [] => []
  | w, e :: es => p.takenBy w e ++ p.taken (p.step w e) es

theorem Quiet.store_step_request (h : p.Quiet) (w : Scene σ) (r : Request ι) :
    p.store (p.step w (.request r)).state = (p.store w.state).serve w.tree r :=
  h.store_withStore _ _

theorem pending_poll (p : Subscribers ι σ) (w : Scene σ) :
    ((p.store w.state).serve w.tree .poll).pending =
      (p.store w.state).pending ++ p.queuedBy w (.request .poll) := by
  show ((p.store w.state).poll w.tree).2.pending = (p.store w.state).pending ++
    match ((p.store w.state).poll w.tree).1 with
    | .ok true => ["watcher"]
    | _ => []
  rcases (p.store w.state).poll_cases w.tree with ⟨hsame, hno, -⟩ | ⟨-, hanswer, hnew⟩
  · rw [hsame]
    split
    · next hyes => exact absurd hyes hno
    · rw [List.append_nil]
  · rw [hnew, hanswer]
    cases (printOf? w.tree (p.store w.state).path).isSome <;> rfl

theorem Quiet.queued_step (h : p.Quiet) (w : Scene σ) {e : Event ι} (he : e ≠ .request .unwatch) :
    (p.store w.state).pending ++ p.queuedBy w e =
      p.takenBy w e ++ (p.store (p.step w e).state).pending := by
  cases e with
  | request r =>
    rw [h.store_step_request]
    cases r with
    | unwatch => exact absurd rfl he
    | poll => exact (p.pending_poll w).symm
    | notify source => rfl
    | load => exact (List.append_nil _).trans ((p.store w.state).load_sameWatch w.tree).pending.symm
    | get => exact (List.append_nil _).trans ((p.store w.state).get_sameWatch w.tree).pending.symm
    | watch i =>
      exact (List.append_nil _).trans ((p.store w.state).watch_frame i w.tree).2.2.2.symm
    | unsubscribe i => exact List.append_nil _
  | process more =>
    have hall := List.suffix_iff_eq_append.mp (h.pending_process w.tree more w.state)
    exact (List.append_nil _).trans hall.symm
  | edit e => exact List.append_nil _

/-- Every signal of a run is taken once, in the order in which it came, or still waits. -/
theorem Quiet.queued_eq (h : p.Quiet) (w : Scene σ) {es : List (Event ι)}
    (hes : .request .unwatch ∉ es) : (p.store w.state).pending ++ p.queued w es =
      p.taken w es ++ (p.store (p.after w es).state).pending := by
  induction es generalizing w with
  | nil => simp [queued, taken]
  | cons e es ih =>
    obtain ⟨he, hrest⟩ := not_or.mp (List.mem_cons.not.mp hes)
    have hstep := h.queued_step w (Ne.symm he)
    have hlater := ih (p.step w e) hrest
    calc (p.store w.state).pending ++ (p.queuedBy w e ++ p.queued (p.step w e) es)
        = p.takenBy w e ++ ((p.store (p.step w e).state).pending ++ p.queued (p.step w e) es) := by
          rw [← List.append_assoc, hstep, List.append_assoc]
      _ = p.takenBy w e ++ p.taken (p.step w e) es ++
            (p.store (p.after (p.step w e) es).state).pending := by
          rw [hlater, List.append_assoc]

end Running

theorem change_of_mem_calls {is : List ι} {c : Change} {n : Notice ι} (h : n ∈ calls is [c]) :
    n.change = c := by
  rw [calls_cons, calls_nil, List.append_nil] at h
  obtain ⟨i, -, rfl⟩ := List.mem_map.mp h
  rfl

theorem isChain_calls (is : List ι) (c : Change) : (calls is [c]).IsChain Follows := by
  refine (List.pairwise_of_forall_mem_list fun n hn m hm => .inl ?_).isChain
  rw [change_of_mem_calls hn, change_of_mem_calls hm]

/-- The calls so far follow one upon the other, and the last one is of a document that was read
before. Unless others were read since, that is the store's. -/
structure Chained (p : Subscribers ι σ) (s : σ × List (Notice ι)) : Prop where
  chain : s.2.IsChain Follows
  last : ∀ n ∈ s.2.getLast?, n.change.new.serial < (p.store s.1).reads ∧
    (n.change.new.serial + 1 = (p.store s.1).reads →
      (p.store s.1).document = some n.change.new)

theorem Chained.frame {s s' : σ × List (Notice ι)} (h : p.Chained s) (hlog : s'.2 = s.2)
    (hstore : (p.store s'.1).document = (p.store s.1).document ∧
        (p.store s'.1).reads = (p.store s.1).reads ∨
      (p.store s'.1).reads = (p.store s.1).reads + 1) : p.Chained s' := by
  refine ⟨hlog ▸ h.chain, fun n hn => ?_⟩
  obtain ⟨hread, hlast⟩ := h.last n (hlog ▸ hn)
  rcases hstore with ⟨hdocument, hreads⟩ | hreads
  · rw [hdocument, hreads]
    exact ⟨hread, hlast⟩
  · rw [hreads]
    exact ⟨by omega, fun hnew => by omega⟩

/-- The calls for one more document, the next one to be read, follow upon those before. -/
theorem Chained.told {s s' : σ × List (Notice ι)} (h : p.Chained s) (is : List ι)
    (hlog : s'.2 = s.2 ++ calls is [changeTo (p.store s.1) d])
    (hstore : p.store s'.1 = ((p.store s.1).keep d).2) : p.Chained s' := by
  refine ⟨?_, fun n hn => ?_⟩
  · rw [hlog]
    refine List.isChain_append.mpr ⟨h.chain, isChain_calls is _, fun n hn m hm => .inr ?_⟩
    obtain ⟨hread, hlast⟩ := h.last n hn
    rw [change_of_mem_calls (List.mem_of_mem_head? hm)]
    exact ⟨hread, fun hnext => hlast hnext.symm⟩
  · rw [hlog, List.getLast?_append] at hn
    rw [hstore]
    rcases Option.or_eq_some_iff.mp hn with hcall | ⟨-, hbefore⟩
    · rw [change_of_mem_calls (List.mem_of_getLast? hcall)]
      exact ⟨Nat.lt_succ_self _, fun _ => rfl⟩
    · have hread := (h.last n hbefore).1
      exact ⟨Nat.lt_succ_of_lt hread, fun hnew => absurd (Nat.succ.inj hnew) (Nat.ne_of_lt hread)⟩

theorem Quiet.chained_handle (h : p.Quiet) {s : σ × List (Notice ι)} (hs : p.Chained s) :
    p.Chained ((p.observed.audience tree).handle tree s).value.2 := by
  have hlawful := h.observed.lawful tree
  rcases readDocument_cases (p.store s.1).toOrigin tree with ⟨f, hf, -⟩ | ⟨d, hd, -⟩ | hnone
  · rw [hlawful.handle_of_stops (s := s) hf]
    exact hs
  · obtain ⟨s', hhandle, hstore⟩ := h.handle_observed (l := s.2) hd
    rw [hhandle]
    exact hs.told _ rfl hstore
  · rw [hlawful.handle_of_none (s := s) hnone]
    exact hs

section Chaining
variable [BEq ι]

theorem Quiet.chained_step (h : p.Quiet) {w : Scene (σ × List (Notice ι))} (hw : p.Chained w.state)
    (e : Event ι) : p.Chained (p.observed.step w e).state := by
  cases e with
  | request r =>
    refine hw.frame rfl ?_
    show (p.store (p.withStore w.state.1 ((p.store w.state.1).serve w.tree r))).document = _ ∧
      (p.store (p.withStore w.state.1 ((p.store w.state.1).serve w.tree r))).reads = _ ∨
        (p.store (p.withStore w.state.1 ((p.store w.state.1).serve w.tree r))).reads = _
    rw [h.store_withStore]
    exact (p.store w.state.1).serve_reads w.tree r
  | process more =>
    refine Audience.processUpTo_keeps (I := p.Chained) w.tree (fun s x rest _ hs => ?_)
      (fun s hs => h.chained_handle hs) _ hw
    refine hs.frame rfl (.inl ?_)
    show (p.store (p.withStore s.1 { p.store s.1 with pending := rest })).document = _ ∧
      (p.store (p.withStore s.1 { p.store s.1 with pending := rest })).reads = _
    rw [h.store_withStore]
    exact ⟨rfl, rfl⟩
  | edit e => exact hw

theorem Quiet.chained_after (h : p.Quiet) (s : σ) (tree : Files.Tree) (es : List (Event ι)) :
    p.Chained (p.observed.after ⟨(s, []), tree⟩ es).state := by
  induction es using List.reverseRecOn with
  | nil => exact ⟨.nil, nofun⟩
  | append_singleton es e ih =>
    rw [after_concat]
    exact h.chained_step ih e

end Chaining

theorem tell_fst (p : Subscribers ι σ) (tree : Files.Tree) (c : Change) (is : List ι)
    (s : σ × List (Notice ι)) :
    ((p.observed.audience tree).tell c is s).value.1 = ((p.audience tree).tell c is s.1).value := by
  induction is generalizing s with
  | nil => rfl
  | cons i is ih =>
    have hone : ((p.observed.audience tree).react i c s).value.1 =
        ((p.audience tree).react i c s.1).value.1 := rfl
    have hrest := ih ((p.observed.audience tree).react i c s).value.2
    simp only [Audience.tell, Report.value_bind, hone]
    split <;> exact hrest

theorem handle_fst (p : Subscribers ι σ) (tree : Files.Tree) (s : σ × List (Notice ι)) :
    ((p.observed.audience tree).handle tree s).value.1 =
        ((p.audience tree).handle tree s.1).value.1 ∧
      ((p.observed.audience tree).handle tree s).value.2.1 =
        ((p.audience tree).handle tree s.1).value.2 := by
  have hstore : (p.observed.audience tree).store s = (p.audience tree).store s.1 := rfl
  simp only [Audience.handle, Report.value_bind, hstore]
  cases (((p.audience tree).store s.1).refresh tree).value.1 with
  | error f => exact ⟨rfl, rfl⟩
  | ok found =>
    cases found with
    | none => exact ⟨rfl, rfl⟩
    | some c => exact ⟨rfl, p.tell_fst tree c _ _⟩

theorem processUpTo_fst (p : Subscribers ι σ) (tree : Files.Tree) (fuel : Nat)
    (s : σ × List (Notice ι)) :
    ((p.observed.audience tree).processUpTo tree fuel s).value.2.1 =
      ((p.audience tree).processUpTo tree fuel s.1).value.2 := by
  induction fuel generalizing s with
  | zero => rfl
  | succ fuel ih =>
    cases hpending : (p.store s.1).pending with
    | nil =>
      rw [Audience.processUpTo_nil (a := p.observed.audience tree) tree _ hpending,
        Audience.processUpTo_nil (a := p.audience tree) tree _ hpending]
    | cons x rest =>
      rw [Audience.processUpTo_cons (a := p.observed.audience tree) tree fuel hpending,
        Audience.processUpTo_cons (a := p.audience tree) tree fuel hpending]
      generalize hpopped : (p.observed.audience tree).withStore s
        { (p.observed.audience tree).store s with pending := rest } = popped
      have hfst : (p.audience tree).withStore s.1
          { (p.audience tree).store s.1 with pending := rest } = popped.1 := by
        rw [← hpopped]
        rfl
      obtain ⟨hanswer, hstate⟩ := p.handle_fst tree popped
      rw [hfst]
      cases hv : ((p.observed.audience tree).handle tree popped).value with
      | mk r s' =>
        cases hv' : ((p.audience tree).handle tree popped.1).value with
        | mk r' s'' =>
          rw [hv, hv'] at hanswer hstate
          obtain rfl : r = r' := hanswer
          obtain rfl : s'.1 = s'' := hstate
          cases r with
          | error f => rfl
          | ok applied => exact ih s'

section Unobserved
variable [BEq ι]

theorem unobserved_step (p : Subscribers ι σ) (w : Scene (σ × List (Notice ι))) (e : Event ι) :
    (p.observed.step w e).unobserved = p.step w.unobserved e := by
  cases e with
  | request r => rfl
  | process more =>
    have hstate := p.processUpTo_fst w.tree ((p.store w.state.1).pending.length + more) w.state
    exact congrArg (Scene.mk · w.tree) hstate
  | edit e => rfl

/-- Writing the calls down changes nothing else. -/
theorem unobserved_after (p : Subscribers ι σ) (w : Scene (σ × List (Notice ι)))
    (es : List (Event ι)) : (p.observed.after w es).unobserved = p.after w.unobserved es := by
  induction es generalizing w with
  | nil => rfl
  | cons e es ih => exact (ih _).trans (congrArg (p.after · es) (p.unobserved_step w e))

end Unobserved

/-- What a run of quiet subscribers comes to, whatever its events. Every signal is taken once and in
its turn as long as nobody stops the watcher, and the calls follow one upon the other. The next
taking of the queue tells every change once, exactly when there is nothing to take or reading the
file does not stop. When it stops, the first signal is gone, the others stay and nobody is told. A
file that is text does not stop it, as long as the reader refuses a text only as malformed; and
where there is no file, it stops only if the path is none. -/
theorem Quiet.delivers_after [BEq ι] (h : p.Quiet) (s : σ) (tree : Files.Tree)
    (es : List (Event ι)) :
    let w := p.observed.after ⟨(s, []), tree⟩ es
    w.unobserved = p.after ⟨s, tree⟩ es ∧
      (.request .unwatch ∉ es → (p.store s).pending ++ p.queued ⟨s, tree⟩ es =
        p.taken ⟨s, tree⟩ es ++ (p.store w.state.1).pending) ∧
      w.state.2.IsChain Follows ∧
      (∀ more, p.Delivers w more ↔
        (p.store w.state.1).pending = [] ∨ ¬ ∃ f, Stops (p.store w.state.1).toOrigin w.tree f) ∧
      (∀ more f x rest, Stops (p.store w.state.1).toOrigin w.tree f →
        (p.store w.state.1).pending = x :: rest →
        ((p.observed.audience w.tree).process w.tree more w.state).value =
          (.error f, p.withStore w.state.1 { p.store w.state.1 with pending := rest },
            w.state.2)) ∧
      (∀ more octets, w.tree.octets (p.store w.state.1).path = .ok octets →
        Utf8.IsText octets → (p.store w.state.1).reader.Orderly octets → p.Delivers w more) ∧
      ∀ more problem, w.tree.octets (p.store w.state.1).path = .error problem →
        problem.isNoPath = false → p.Delivers w more := by
  intro w
  have hunobserved : w.unobserved = p.after ⟨s, tree⟩ es := p.unobserved_after _ es
  refine ⟨hunobserved, fun hes => ?_, (h.chained_after s tree es).chain, ?_, ?_, ?_, ?_⟩
  · have hstate : w.state.1 = (p.after ⟨s, tree⟩ es).state := congrArg Scene.state hunobserved
    rw [hstate]
    exact h.queued_eq ⟨s, tree⟩ hes
  · exact h.delivers_iff_reads w
  · intro more f x rest hstops hpending
    exact (h.observed.lawful w.tree).process_of_stops more (s := w.state) hpending hstops
  · intro more octets hoctets htext horderly
    refine (h.delivers_iff_reads w more).mpr (.inr fun hstops => ?_)
    exact not_isText_of_stops hoctets horderly hstops htext
  · intro more problem hproblem hpath
    refine (h.delivers_iff_reads w more).mpr (.inr fun hstops => ?_)
    exact absurd ((stops_iff_of_error hproblem).mp hstops) (by simp [hpath])

/-- One bystander who fails and one who comes through wait for a signal, and there is one. -/
def signalled (octets : List Nat) : Scene (Store Bool × List (Notice Bool)) :=
  bystanders.observed.after ⟨({ path := Config.queued.store.path }, []), treeOf octets⟩
    [.request (.watch false), .request (.watch true), .request (.notify "manual")]

set_option maxRecDepth 100000 in
theorem signalled_frame (octets : List Nat) :
    (signalled octets).tree = treeOf octets ∧
      (signalled octets).state.1.toOrigin = Config.queued.store.toOrigin ∧
      (signalled octets).state.1.pending = ["manual"] ∧
      (signalled octets).state.1.subscribers = [false, true] ∧
      (signalled octets).state.2 = [] := by
  simp only [signalled, after, List.foldl, step, observed, bystanders, Store.serve, Store.notify]
  exact ⟨trivial, rfl, rfl, rfl, trivial⟩

/-- The octets of a mapping. -/
def mappingOctets : List Nat := Utf8.encode "version: v\n"

/-- The bystander who fails is told first, and keeps nobody from being told. -/
theorem delivers_after_mapping :
    ∃ c s', ((bystanders.observed.audience (treeOf mappingOctets)).process (treeOf mappingOctets) 0
        (signalled mappingOctets).state).value = (.ok 1, s') ∧
      s'.1.pending = [] ∧ s'.2 = [⟨false, c, some c.new⟩, ⟨true, c, some c.new⟩] := by
  obtain ⟨-, -, hpending, hsubscribers, hlog⟩ := signalled_frame mappingOctets
  have hread : (readDocument Config.queued.store.toOrigin
      (treeOf mappingOctets)).value.toOption.join.isSome = true := by decide +kernel
  obtain ⟨d, hfound⟩ := Option.isSome_iff_exists.mp hread
  have hd := holdsMapping_of_read hfound
  have hstops : ¬ ∃ f, Stops Config.queued.store.toOrigin (treeOf mappingOctets) f := by
    intro hstops
    obtain ⟨f, hf⟩ := hstops
    cases (readDocument_of_stops hf).symm.trans (readDocument_of_holdsMapping hd)
  obtain ⟨-, -, -, hiff, -⟩ := bystanders_quiet.delivers_after
    ({ path := Config.queued.store.path } : Store Bool) (treeOf mappingOctets)
    [.request (.watch false), .request (.watch true), .request (.notify "manual")]
  obtain ⟨changes, s', hprocess, hdelivery⟩ := (hiff 0).mpr (.inr hstops)
  have hcount : changes.length = 1 :=
    (hdelivery.complete ⟨d, hd⟩).trans (congrArg List.length hpending)
  obtain ⟨c, rfl⟩ := List.length_eq_one_iff.mp hcount
  refine ⟨c, s', hprocess, hdelivery.emptied, ?_⟩
  have hcalls : s'.2 = (signalled mappingOctets).state.2 ++
    calls (signalled mappingOctets).state.1.subscribers [c] := hdelivery.told
  rw [hlog, hsubscribers] at hcalls
  exact hcalls

/-- The octets of a mapping with a number that is none. The reader of the program refuses them, but
not as malformed. -/
def numberOctets : List Nat := Utf8.encode "a: !!int x\n"

/-- A file that is text and stops the reading: nobody is told, and the signal is gone. -/
theorem numberOctets_undelivered :
    Utf8.IsText numberOctets ∧ ¬ bystanders.Delivers (signalled numberOctets) 0 ∧
      ∃ f s', ((bystanders.observed.audience (treeOf numberOctets)).process (treeOf numberOctets) 0
          (signalled numberOctets).state).value = (.error f, s') ∧
        s'.1.pending = [] ∧ s'.2 = [] := by
  obtain ⟨-, horigin, hpending, -, hlog⟩ := signalled_frame numberOctets
  have hfails : (readDocument Config.queued.store.toOrigin
      (treeOf numberOctets)).value.toOption.isNone = true := by decide +kernel
  obtain ⟨f, hf⟩ :
      ∃ f, Stops (signalled numberOctets).state.1.toOrigin (treeOf numberOctets) f := by
    rw [horigin]
    refine readDocument_error_iff.mp ?_
    cases hread : (readDocument Config.queued.store.toOrigin (treeOf numberOctets)).value with
    | error f => exact ⟨f, rfl⟩
    | ok found => simp [hread, Except.toOption] at hfails
  have hprocess := (bystanders_quiet.observed.lawful (treeOf numberOctets)).process_of_stops 0
    (s := (signalled numberOctets).state) hpending hf
  refine ⟨⟨"a: !!int x\n", rfl⟩, fun hdelivers => ?_, f, _, hprocess, rfl, hlog⟩
  rcases (bystanders_quiet.delivers_iff_reads _ 0).mp hdelivers with hempty | hreads
  · exact absurd (hpending.symm.trans hempty) (List.cons_ne_nil _ _)
  · exact hreads ⟨f, hf⟩

end Subscribers

end DecisionGate.Config
