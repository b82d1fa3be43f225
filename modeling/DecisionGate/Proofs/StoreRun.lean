import DecisionGate.Files.Edit
import DecisionGate.Proofs.Unreadable

/-!
# Runs of a store

A run of a store is a list of events: requests to it, takings of its queue, and edits of the files.
The store is part of a larger state on which its subscribers act when they are told of a change.
They may call back into the store, or leave it alone. This module says what a run is, and what every
run keeps.
-/
namespace DecisionGate.Config

/-- What can be asked of a store besides the taking of its queue. A reload is a load. -/
inductive Request (ι : Type) where
  | load
  | get
  | watch (i : ι)
  | unsubscribe (i : ι)
  | unwatch
  | notify (source : String)
  | poll

/-- What happens to a store and to the files around it. -/
inductive Event (ι : Type) where
  | request (r : Request ι)
  | process (more : Nat)
  | edit (e : Files.Edit)

/-- A state with a store in it, and the files. -/
structure Scene (σ : Type) where
  state : σ
  tree : Files.Tree

/-- The subscribers of a store, whatever the files are when they are told of a change. -/
structure Subscribers (ι σ : Type) where
  store : σ → Store ι
  withStore : σ → Store ι → σ
  react : Files.Tree → ι → Change → σ → Report (Bool × σ)

/-- The fingerprint of what is at a path, if there is anything. -/
def printOf? (tree : Files.Tree) (path : Files.Path) : Option Files.Fingerprint :=
  (tree.fingerprint path).toOption.join

variable {ι σ : Type} {path : Files.Path} {o : Origin} {tree tree' : Files.Tree} {d d' : Entries}

theorem HoldsMapping.unique (h : HoldsMapping o tree d) (h' : HoldsMapping o tree d') :
    d = d' := by
  have hread := (readDocument_of_holdsMapping h).symm.trans (readDocument_of_holdsMapping h')
  exact Option.some.inj (Except.ok.inj hread)

/-- What can be read has a fingerprint. -/
theorem HoldsMapping.isSome_printOf? (h : HoldsMapping o tree d) :
    (printOf? tree o.path).isSome := by
  obtain ⟨octets, hoctets, -⟩ := h
  unfold Files.Tree.octets at hoctets
  unfold printOf? Files.Tree.fingerprint
  cases hfind : tree.find o.path with
  | ok e => rfl
  | error problem => rw [hfind, error_bind] at hoctets; cases hoctets

/-- The entry at a path is all that the fingerprint and the reading depend on. -/
theorem printOf?_congr (h : tree'.find path = tree.find path) :
    printOf? tree' path = printOf? tree path := by
  rw [printOf?, printOf?, Files.Tree.fingerprint, Files.Tree.fingerprint, h]

theorem holdsMapping_congr (h : tree'.find o.path = tree.find o.path) :
    HoldsMapping o tree' d ↔ HoldsMapping o tree d := by
  rw [HoldsMapping, HoldsMapping, Files.Tree.octets, Files.Tree.octets, h]

/-- A subscription reads no file and sends no signal. -/
theorem Store.watch_frame (s : Store ι) (i : ι) (tree : Files.Tree) :
    (s.watch i tree).value.2.toOrigin = s.toOrigin ∧
      (s.watch i tree).value.2.document = s.document ∧
      (s.watch i tree).value.2.reads = s.reads ∧ (s.watch i tree).value.2.pending = s.pending := by
  simp only [Store.watch]
  split
  · exact ⟨rfl, rfl, rfl, rfl⟩
  · split <;> exact ⟨rfl, rfl, rfl, rfl⟩

/-- A look at the file does nothing when the file is the one seen last, or cannot be asked for.
Else it keeps the fingerprint and, when there is a file, queues a signal. -/
theorem Store.poll_cases (s : Store ι) (tree : Files.Tree) :
    (s.poll tree).2 = s ∧ (s.poll tree).1 ≠ .ok true ∧
        (s.fingerprint = printOf? tree s.path ∨ printOf? tree s.path = none) ∨
      s.fingerprint ≠ printOf? tree s.path ∧
        (s.poll tree).1 = .ok (printOf? tree s.path).isSome ∧
        (s.poll tree).2 = { s with
          fingerprint := printOf? tree s.path
          pending := s.pending ++ if (printOf? tree s.path).isSome then ["watcher"] else [] } := by
  unfold Store.poll printOf?
  cases hf : tree.fingerprint s.path with
  | error p => exact .inl ⟨rfl, nofun, .inr rfl⟩
  | ok seen =>
    by_cases hseen : seen = s.fingerprint
    · left
      simp [hseen, Except.toOption]
    · right
      refine ⟨fun h => hseen h.symm, ?_⟩
      cases seen with
      | none => simp [hseen, Except.toOption]
      | some fp => simp [hseen, Except.toOption, Store.notify]

/-- A load keeps the document or reads another one. -/
theorem Store.load_reads (s : Store ι) (tree : Files.Tree) :
    (s.load tree).value.2.document = s.document ∧ (s.load tree).value.2.reads = s.reads ∨
      (s.load tree).value.2.reads = s.reads + 1 := by
  rw [load_value]
  split
  · exact .inl ⟨rfl, rfl⟩
  · exact .inl ⟨rfl, rfl⟩
  · exact .inr rfl

section Serving
variable [BEq ι]

/-- The store after a request, whether or not it was met. -/
def Store.serve (s : Store ι) (tree : Files.Tree) : Request ι → Store ι
  | .load => (s.load tree).value.2
  | .get => (s.get tree).value.2
  | .watch i => (s.watch i tree).value.2
  | .unsubscribe i => (s.unsubscribe i).2
  | .unwatch => s.unwatch.value
  | .notify source => s.notify source
  | .poll => (s.poll tree).2

def Store.serveAll (s : Store ι) (tree : Files.Tree) (rs : List (Request ι)) : Store ι :=
  rs.foldl (fun s r => s.serve tree r) s

@[simp] theorem Store.origin_serve (s : Store ι) (tree : Files.Tree) (r : Request ι) :
    (s.serve tree r).toOrigin = s.toOrigin := by
  cases r with
  | load => exact (s.load_sameWatch tree).origin
  | get => exact (s.get_sameWatch tree).origin
  | watch i => exact (s.watch_frame i tree).1
  | poll =>
    show (s.poll tree).2.toOrigin = s.toOrigin
    rcases s.poll_cases tree with ⟨hsame, -⟩ | ⟨-, -, hnew⟩
    · rw [hsame]
    · rw [hnew]
  | _ => rfl

theorem Store.serve_reads (s : Store ι) (tree : Files.Tree) (r : Request ι) :
    (s.serve tree r).document = s.document ∧ (s.serve tree r).reads = s.reads ∨
      (s.serve tree r).reads = s.reads + 1 := by
  cases r with
  | load => exact s.load_reads tree
  | get =>
    show (s.get tree).value.2.document = _ ∧ (s.get tree).value.2.reads = _ ∨
      (s.get tree).value.2.reads = _
    unfold get
    split
    · exact .inl ⟨rfl, rfl⟩
    · exact s.load_reads tree
  | watch i =>
    obtain ⟨-, hdocument, hreads, -⟩ := s.watch_frame i tree
    exact .inl ⟨hdocument, hreads⟩
  | poll =>
    show (s.poll tree).2.document = _ ∧ (s.poll tree).2.reads = _ ∨ _
    rcases s.poll_cases tree with ⟨hsame, -⟩ | ⟨-, -, hnew⟩
    · exact .inl ⟨congrArg Store.document hsame, congrArg Store.reads hsame⟩
    · exact .inl ⟨by rw [hnew], by rw [hnew]⟩
  | _ => exact .inl ⟨rfl, rfl⟩

/-- Whatever each request keeps, all of them keep. -/
theorem Store.serveAll_keeps {tree : Files.Tree} {I : Store ι → Prop}
    (h : ∀ s r, I s → I (s.serve tree r)) (rs : List (Request ι)) {s : Store ι} (hs : I s) :
    I (s.serveAll tree rs) := by
  induction rs generalizing s with
  | nil => exact hs
  | cons r rs ih => exact ih (h s r hs)

end Serving

namespace Subscribers

def audience (p : Subscribers ι σ) (tree : Files.Tree) : Audience ι σ where
  store := p.store
  withStore := p.withStore
  react := p.react tree

section Running
variable [BEq ι]

/-- An event that cannot take place leaves everything as it is. -/
def step (p : Subscribers ι σ) (w : Scene σ) : Event ι → Scene σ
  | .request r => { w with state := p.withStore w.state ((p.store w.state).serve w.tree r) }
  | .process more => { w with state := ((p.audience w.tree).process w.tree more w.state).value.2 }
  | .edit e => { w with tree := (e.apply w.tree).toOption.getD w.tree }

def after (p : Subscribers ι σ) (w : Scene σ) (es : List (Event ι)) : Scene σ := es.foldl p.step w

@[simp] theorem after_nil (p : Subscribers ι σ) (w : Scene σ) : p.after w [] = w := rfl

theorem after_append (p : Subscribers ι σ) (w : Scene σ) (es more : List (Event ι)) :
    p.after w (es ++ more) = p.after (p.after w es) more := List.foldl_append ..

@[simp] theorem after_concat (p : Subscribers ι σ) (w : Scene σ) (es : List (Event ι))
    (e : Event ι) : p.after w (es ++ [e]) = p.step (p.after w es) e := List.foldl_concat ..

end Running

/-- The store is a part of the state. -/
structure Embeds (p : Subscribers ι σ) : Prop where
  store_withStore : ∀ s st, p.store (p.withStore s st) = st
  withStore_store : ∀ s, p.withStore s (p.store s) = s
  withStore_withStore : ∀ s st st', p.withStore (p.withStore s st) st' = p.withStore s st'

/-- Nobody who is told of a change calls back into the store. -/
structure Quiet (p : Subscribers ι σ) : Prop extends p.Embeds where
  store_react : ∀ tree i c s, p.store (p.react tree i c s).value.2 = p.store s

/-- Those who are told of a change call back into the store by requests, if at all. -/
structure Polite [BEq ι] (p : Subscribers ι σ) : Prop extends p.Embeds where
  store_react : ∀ tree i c s, ∃ rs,
    p.store (p.react tree i c s).value.2 = (p.store s).serveAll tree rs

variable {p : Subscribers ι σ}

theorem Quiet.lawful (h : p.Quiet) (tree : Files.Tree) : (p.audience tree).Lawful where
  store_withStore := h.store_withStore
  withStore_store := h.withStore_store
  withStore_withStore := h.withStore_withStore
  origin_react i c s := congrArg Store.toOrigin (h.store_react tree i c s)

theorem Quiet.polite [BEq ι] (h : p.Quiet) : p.Polite where
  toEmbeds := h.toEmbeds
  store_react tree i c s := ⟨[], h.store_react tree i c s⟩

/-- Subscribers who do nothing; each is known by whether it comes through. -/
def bystanders : Subscribers Bool (Store Bool) where
  store s := s
  withStore _ s := s
  react _ ok _ s := pure (ok, s)

@[simp] theorem store_bystanders (s : Store Bool) : bystanders.store s = s := rfl

theorem bystanders_quiet : bystanders.Quiet where
  store_withStore _ _ := rfl
  withStore_store _ := rfl
  withStore_withStore _ _ _ := rfl
  store_react _ _ _ _ := rfl

end Subscribers

end DecisionGate.Config
