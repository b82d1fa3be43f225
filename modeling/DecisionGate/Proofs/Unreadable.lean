import DecisionGate.Config.Listener
import DecisionGate.Proofs.Decoding
import DecisionGate.Proofs.Load
import DecisionGate.Proofs.Queue

/-!
# Files that cannot be read

A file that is absent, cannot be opened, is no well-formed document or holds no mapping is none to
the store: nothing is loaded, and the signals in the queue are taken without anyone being told. But
a file that is no text stops the store. The fault of the octets is passed on, a signal that was
taken is gone and the others stay in the queue. This module says which files do so, whatever it is
that reads them: those whose path can be none and those whose reading ends in anything but a
malformed document. What is relied on of a reader is named: as long as it refuses a text only for
being malformed, the latter are no text, and as long as it decodes what it reads, a short file that
is no text is one of them.
-/
namespace DecisionGate

namespace Yaml

/-- A file that is text is read, or refused as malformed. -/
def Reader.Orderly (r : Reader) (octets : List Nat) : Prop :=
  Utf8.IsText octets → ∀ p, r.read (.file octets) = .error p → p = .malformed

/-- A file that is no text is not read: the fault of its octets is passed on. In a longer file what
stands before the fault may be refused first. -/
def Reader.Decodes (r : Reader) : Prop :=
  ∀ octets, ¬ Utf8.IsText octets → octets.length < 2 * Text.Stream.blockSize →
    ∃ p, r.read (.file octets) = .error (.undecodable p)

theorem wholeBlocks_of_short {count : Nat} (h : count < 2 * Text.Stream.blockSize) :
    Source.wholeBlocks count = 0 := by
  have hblocks : count / Text.Stream.blockSize < 2 := Nat.div_lt_of_lt_mul (by omega)
  rw [Source.wholeBlocks, if_pos hblocks]

/-- The first two blocks are looked at together, so a fault in them leaves nothing to read. -/
theorem decodes_reader : reader.Decodes := by
  intro octets hno hshort
  have hfault : (Text.Stream.read octets).fault ≠ none :=
    fun h => hno (Text.Stream.fault_read_eq_none_iff.mp h)
  obtain ⟨p, hp⟩ := Option.ne_none_iff_exists'.mp hfault
  have hlength := Text.Stream.length_read octets
  have hblocks := wholeBlocks_of_short (Nat.lt_of_le_of_lt hlength hshort)
  have hsource : Source.ofInput (.file octets) =
      { chars := [], stop := some (.undecodable p) } := by
    simp [Source.ofInput, Source.ofOctets, Source.ofReading, hp, hblocks]
  exact ⟨p, congrArg Yaml.read hsource⟩

end Yaml

namespace Config

variable {ι σ : Type} {o : Origin} {tree : Files.Tree} {f : Failure}

/-- A failure that reading the file of an origin passes on. -/
inductive Stops (o : Origin) (tree : Files.Tree) : Failure → Prop
  | path {p : Files.Problem} : tree.octets o.path = .error p → p.isNoPath = true →
      Stops o tree (.file p)
  | reading {octets : List Nat} {p : Yaml.Problem} : tree.octets o.path = .ok octets →
      o.reader.read (.file octets) = .error p → p ≠ .malformed → Stops o tree (.ofYaml p)

/-- The file of an origin is a document with a mapping. -/
def HoldsMapping (o : Origin) (tree : Files.Tree) (es : Entries) : Prop :=
  ∃ octets, tree.octets o.path = .ok octets ∧ o.reader.read (.file octets) = .ok (.map es)

/-- What the reading of a file comes to, by what the file system and the reader say. -/
theorem readDocument_cases (o : Origin) (tree : Files.Tree) :
    (∃ f, Stops o tree f ∧ (readDocument o tree).value = .error f) ∨
      (∃ es, HoldsMapping o tree es ∧ (readDocument o tree).value = .ok (some es)) ∨
      (readDocument o tree).value = .ok none := by
  unfold readDocument
  split
  · exact .inr (.inr rfl)
  · next p _ hp =>
    split
    · next hno => exact .inl ⟨_, .path hp hno, rfl⟩
    · exact .inr (.inr rfl)
  · next octets hoctets =>
    unfold parseDocument
    split
    · exact .inr (.inr rfl)
    · next p hne hread => exact .inl ⟨_, .reading hoctets hread hne, rfl⟩
    · next es hread => exact .inr (.inl ⟨es, ⟨octets, hoctets, hread⟩, rfl⟩)
    · exact .inr (.inr rfl)

theorem readDocument_of_octets {octets : List Nat} (h : tree.octets o.path = .ok octets) :
    readDocument o tree = parseDocument o.reader octets := by
  rw [readDocument, h]

theorem parseDocument_of_error {reader : Yaml.Reader} {octets : List Nat} {p : Yaml.Problem}
    (h : reader.read (.file octets) = .error p) (hne : p ≠ .malformed) :
    (parseDocument reader octets).value = .error (.ofYaml p) := by
  unfold parseDocument
  split
  · next heq => exact absurd (Except.error.inj (h.symm.trans heq)) hne
  · next heq => rw [Except.error.inj (h.symm.trans heq), Report.value_pure]
  · next heq => exact absurd (h.symm.trans heq) nofun
  · next heq => exact absurd (h.symm.trans heq) nofun

theorem parseDocument_of_map {reader : Yaml.Reader} {octets : List Nat} {es : Entries}
    (h : reader.read (.file octets) = .ok (.map es)) :
    (parseDocument reader octets).value = .ok (some es) := by
  unfold parseDocument
  split
  · next heq => exact absurd (h.symm.trans heq) nofun
  · next heq => exact absurd (h.symm.trans heq) nofun
  · next heq =>
    obtain rfl := Value.map.inj (Except.ok.inj (h.symm.trans heq))
    rw [Report.value_pure]
  · next hother heq => exact absurd (Except.ok.inj (h.symm.trans heq)).symm (hother es)

theorem readDocument_of_stops (h : Stops o tree f) :
    (readDocument o tree).value = .error f := by
  cases h with
  | path hp hno =>
    unfold readDocument
    split
    · next heq =>
      obtain rfl := Except.error.inj (hp.symm.trans heq)
      cases hno
    · next heq =>
      obtain rfl := Except.error.inj (hp.symm.trans heq)
      rw [if_pos hno, Report.value_pure]
    · next heq => exact absurd (hp.symm.trans heq) nofun
  | reading hoctets hread hne =>
    rw [readDocument_of_octets hoctets, parseDocument_of_error hread hne]

theorem readDocument_of_holdsMapping {es : Entries} (h : HoldsMapping o tree es) :
    (readDocument o tree).value = .ok (some es) := by
  obtain ⟨octets, hoctets, hread⟩ := h
  rw [readDocument_of_octets hoctets, parseDocument_of_map hread]

theorem holdsMapping_of_read {es : Entries}
    (h : (readDocument o tree).value.toOption.join = some es) : HoldsMapping o tree es := by
  rcases readDocument_cases o tree with ⟨f, -, hf⟩ | ⟨es', hes', hread⟩ | hnone
  · rw [hf] at h
    cases h
  · rw [hread] at h
    exact Option.some.inj h ▸ hes'
  · rw [hnone] at h
    cases h

theorem readDocument_error_iff :
    (∃ f, (readDocument o tree).value = .error f) ↔ ∃ f, Stops o tree f := by
  constructor
  · intro h
    obtain ⟨f, hf⟩ := h
    rcases readDocument_cases o tree with ⟨f', hstops, -⟩ | ⟨es, -, hok⟩ | hok
    · exact ⟨f', hstops⟩
    · cases hf.symm.trans hok
    · cases hf.symm.trans hok
  · intro h
    obtain ⟨f, hf⟩ := h
    exact ⟨f, readDocument_of_stops hf⟩

/-- A file gives no document when it neither stops the reading nor holds a mapping. -/
theorem readDocument_eq_none_iff :
    (readDocument o tree).value = .ok none ↔
      (¬ ∃ f, Stops o tree f) ∧ ¬ ∃ es, HoldsMapping o tree es := by
  constructor
  · intro hnone
    constructor
    · intro hstops
      obtain ⟨f, hf⟩ := hstops
      exact absurd (hnone.symm.trans (readDocument_of_stops hf)) nofun
    · intro hmapping
      obtain ⟨es, hes⟩ := hmapping
      exact absurd (hnone.symm.trans (readDocument_of_holdsMapping hes)) nofun
  · intro h
    obtain ⟨hstops, hmapping⟩ := h
    rcases readDocument_cases o tree with ⟨f, hf, -⟩ | ⟨es, hes, -⟩ | hnone
    · exact absurd ⟨f, hf⟩ hstops
    · exact absurd ⟨es, hes⟩ hmapping
    · exact hnone

theorem stops_of_short {octets : List Nat} (h : tree.octets o.path = .ok octets)
    (hdecodes : o.reader.Decodes) (hno : ¬ Utf8.IsText octets)
    (hshort : octets.length < 2 * Text.Stream.blockSize) : ∃ p, Stops o tree (.decoding p) := by
  obtain ⟨p, hp⟩ := hdecodes octets hno hshort
  exact ⟨p, .reading h hp nofun⟩

theorem not_isText_of_stops {octets : List Nat} (h : tree.octets o.path = .ok octets)
    (horderly : o.reader.Orderly octets) (hstops : ∃ f, Stops o tree f) :
    ¬ Utf8.IsText octets := by
  intro htext
  obtain ⟨f, hf⟩ := hstops
  cases hf with
  | path hp _ => exact absurd (h.symm.trans hp) nofun
  | reading hoctets hread hne =>
    obtain rfl := Except.ok.inj (h.symm.trans hoctets)
    exact hne (horderly htext _ hread)

/-- Nothing at a path stops the reading only if the path is none. -/
theorem stops_iff_of_error {p : Files.Problem} (h : tree.octets o.path = .error p) :
    (∃ f, Stops o tree f) ↔ p.isNoPath = true := by
  constructor
  · intro hstops
    obtain ⟨f, hf⟩ := hstops
    cases hf with
    | path hp hno =>
      obtain rfl := Except.error.inj (h.symm.trans hp)
      exact hno
    | reading hoctets _ _ => exact absurd (h.symm.trans hoctets) nofun
  · intro hno
    exact ⟨_, .path h hno⟩

namespace Store

theorem refresh_value (s : Store ι) (tree : Files.Tree) :
    (s.refresh tree).value =
      match (readDocument s.toOrigin tree).value with
      | .error f => (.error f, s)
      | .ok none => (.ok none, s)
      | .ok (some d) => (.ok (some ⟨(s.keep d).1, s.document⟩), (s.keep d).2) := by
  simp only [refresh, Report.value_bind]
  cases (readDocument s.toOrigin tree).value with
  | error f => rfl
  | ok found => cases found <;> rfl

theorem load_answers_iff (s : Store ι) (tree : Files.Tree) :
    (∃ d, (s.load tree).value.1 = .ok d) ↔ ¬ ∃ f, Stops s.toOrigin tree f := by
  rw [← readDocument_error_iff, Store.load_value]
  cases (readDocument s.toOrigin tree).value with
  | error f => simp
  | ok found => cases found <;> simp

/-- The document that is there is given without a look at the file. -/
theorem get_answers_iff (s : Store ι) (tree : Files.Tree) :
    (∃ d, (s.get tree).value.1 = .ok d) ↔
      s.document.isSome ∨ ¬ ∃ f, Stops s.toOrigin tree f := by
  unfold get
  cases hd : s.document with
  | some d => simp
  | none => simpa using s.load_answers_iff tree

end Store

/-- A signal that finds a mapping replaces the document, and everybody is told of it. -/
theorem Audience.handle_of_mapping {a : Audience ι σ} {s : σ} {d : Entries}
    (hd : HoldsMapping (a.store s).toOrigin tree d) :
    (a.handle tree s).value =
      (.ok true, (a.tell ⟨((a.store s).keep d).1, (a.store s).document⟩ (a.store s).subscribers
        (a.withStore s ((a.store s).keep d).2)).value) := by
  rw [handle, Report.value_bind, Store.refresh_value, readDocument_of_holdsMapping hd]
  rfl

/-- The store of an audience is a part of its state, and nobody who is told of a change moves its
file. -/
structure Audience.Lawful (a : Audience ι σ) : Prop where
  store_withStore : ∀ s st, a.store (a.withStore s st) = st
  withStore_store : ∀ s, a.withStore s (a.store s) = s
  withStore_withStore : ∀ s st st', a.withStore (a.withStore s st) st' = a.withStore s st'
  origin_react : ∀ i c s, (a.store (a.react i c s).value.2).toOrigin = (a.store s).toOrigin

namespace Audience.Lawful

variable {a : Audience ι σ} (h : a.Lawful) {s : σ}
include h

theorem origin_tell (c : Change) (is : List ι) (s : σ) :
    (a.store (a.tell c is s).value).toOrigin = (a.store s).toOrigin := by
  induction is generalizing s with
  | nil => rfl
  | cons i is ih =>
    simp only [tell, Report.value_bind]
    split
    · rw [Report.value_bind, ih, h.origin_react]
    · rw [ih, h.origin_react]

theorem handle_of_stops (hstops : Stops (a.store s).toOrigin tree f) :
    (a.handle tree s).value = (.error f, s) := by
  rw [handle, Report.value_bind, Store.refresh_value, readDocument_of_stops hstops]
  simp only [h.withStore_store, Report.value_pure]

theorem handle_of_none (hnone : (readDocument (a.store s).toOrigin tree).value = .ok none) :
    (a.handle tree s).value = (.ok false, s) := by
  rw [handle, Report.value_bind, Store.refresh_value, hnone]
  simp only [h.withStore_store, Report.value_pure]

/-- Handling a signal gives an answer unless reading the file stops, and the file stays where it
is. -/
theorem handle_answers (hstops : ¬ ∃ f, Stops (a.store s).toOrigin tree f) :
    ∃ applied s', (a.handle tree s).value = (.ok applied, s') ∧
      (a.store s').toOrigin = (a.store s).toOrigin := by
  rcases readDocument_cases (a.store s).toOrigin tree with ⟨f, hf, -⟩ | ⟨es, -, hes⟩ | hnone
  · exact absurd ⟨f, hf⟩ hstops
  · rw [handle, Report.value_bind, Store.refresh_value, hes]
    simp only [Report.value_bind, Report.value_pure]
    refine ⟨true, _, rfl, ?_⟩
    rw [h.origin_tell, h.store_withStore]
    rfl
  · exact ⟨false, s, h.handle_of_none hnone, rfl⟩

/-- The signal that was taken is gone. -/
theorem processUpTo_of_stops (fuel : Nat) {x : String} {rest : List String}
    (hpending : (a.store s).pending = x :: rest) (hstops : Stops (a.store s).toOrigin tree f) :
    (a.processUpTo tree (fuel + 1) s).value =
      (.error f, a.withStore s { a.store s with pending := rest }) := by
  have horigin : (a.store (a.withStore s { a.store s with pending := rest })).toOrigin =
      (a.store s).toOrigin := by rw [h.store_withStore]
  have hhandle := h.handle_of_stops (horigin ▸ hstops)
  rw [processUpTo_cons tree fuel hpending, hhandle]

theorem process_of_stops (more : Nat) {x : String} {rest : List String}
    (hpending : (a.store s).pending = x :: rest) (hstops : Stops (a.store s).toOrigin tree f) :
    (a.process tree more s).value =
      (.error f, a.withStore s { a.store s with pending := rest }) := by
  have hfuel : (a.store s).pending.length + more = rest.length + more + 1 := by
    rw [hpending, List.length_cons]
    omega
  rw [process, hfuel, h.processUpTo_of_stops _ hpending hstops]

/-- Every signal is taken, whatever those who are told of a document add to the queue. -/
theorem processUpTo_answers (fuel : Nat) (hstops : ¬ ∃ f, Stops (a.store s).toOrigin tree f) :
    ∃ n, (a.processUpTo tree fuel s).value.1 = .ok n := by
  induction fuel generalizing s with
  | zero => exact ⟨0, rfl⟩
  | succ fuel ih =>
    cases hpending : (a.store s).pending with
    | nil => exact ⟨0, by rw [processUpTo_nil tree (fuel + 1) hpending]⟩
    | cons x rest =>
      obtain ⟨popped, hpopped⟩ : ∃ popped,
          popped = a.withStore s { a.store s with pending := rest } := ⟨_, rfl⟩
      have horigin : (a.store popped).toOrigin = (a.store s).toOrigin := by
        rw [hpopped, h.store_withStore]
      obtain ⟨applied, s', hhandle, horigin'⟩ := h.handle_answers (horigin ▸ hstops)
      obtain ⟨n, hn⟩ := ih (s := s') (by rwa [horigin', horigin])
      rw [processUpTo_cons tree fuel hpending, ← hpopped, hhandle]
      exact ⟨n + applied.toNat, by simp [hn, Except.map]⟩

/-- Without a document the signals are taken one by one, and nothing else comes of them. -/
theorem processUpTo_of_none (fuel : Nat) {signals : List String}
    (hpending : (a.store s).pending = signals) (hfuel : signals.length ≤ fuel)
    (hnone : (readDocument (a.store s).toOrigin tree).value = .ok none) :
    (a.processUpTo tree fuel s).value =
      (.ok 0, a.withStore s { a.store s with pending := [] }) := by
  induction signals generalizing fuel s with
  | nil =>
    have hsame : a.withStore s { a.store s with pending := [] } = s := by
      rw [← hpending, h.withStore_store]
    rw [processUpTo_nil tree fuel hpending, hsame]
  | cons x rest ih =>
    cases fuel with
    | zero => exact absurd hfuel (Nat.not_succ_le_zero _)
    | succ fuel =>
      obtain ⟨popped, hpopped⟩ : ∃ popped,
          popped = a.withStore s { a.store s with pending := rest } := ⟨_, rfl⟩
      have hstore : a.store popped = { a.store s with pending := rest } := by
        rw [hpopped, h.store_withStore]
      have hnone' : (readDocument (a.store popped).toOrigin tree).value = .ok none := by
        rwa [hstore]
      have hrest := ih (s := popped) fuel (by rw [hstore]) (Nat.le_of_succ_le_succ hfuel) hnone'
      have hempty : a.withStore popped { a.store popped with pending := [] } =
          a.withStore s { a.store s with pending := [] } := by
        rw [hstore, hpopped, h.withStore_withStore]
      rw [processUpTo_cons tree fuel hpending, ← hpopped, h.handle_of_none hnone']
      simp only [hrest, hempty, Except.map, Bool.toNat_false, Nat.add_zero]

theorem process_answers_iff (more : Nat) :
    (∃ n, (a.process tree more s).value.1 = .ok n) ↔
      (a.store s).pending = [] ∨ ¬ ∃ f, Stops (a.store s).toOrigin tree f := by
  constructor
  · intro hanswers
    by_contra hno
    obtain ⟨hpending, hstops⟩ := not_or.mp hno
    obtain ⟨f, hf⟩ := not_not.mp hstops
    obtain ⟨x, rest, hcons⟩ := List.exists_cons_of_ne_nil hpending
    obtain ⟨n, hn⟩ := hanswers
    rw [h.process_of_stops more hcons hf] at hn
    cases hn
  · intro hpossible
    rcases hpossible with hpending | hstops
    · exact ⟨0, by rw [process, processUpTo_nil tree _ hpending]⟩
    · exact h.processUpTo_answers _ hstops

end Audience.Lawful

/-- No content of the file breaks the store: reading it and taking the queue give an answer, and
without a mapping in the file nothing is loaded, nobody is told, and of everything else only the
queue changes. -/
structure Unbroken (a : Audience ι σ) (tree : Files.Tree) (more : Nat) (s : σ) : Prop where
  load : ∃ d, ((a.store s).load tree).value.1 = .ok d
  get : ∃ d, ((a.store s).get tree).value.1 = .ok d
  process : ∃ n, (a.process tree more s).value.1 = .ok n
  unread : (¬ ∃ es, HoldsMapping (a.store s).toOrigin tree es) →
    ((a.store s).load tree).value = (.ok none, a.store s) ∧
      (a.process tree more s).value = (.ok 0, a.withStore s { a.store s with pending := [] })

/-- The store is unbroken exactly when reading its file does not stop. If it does stop, the first
signal is gone and the others stay. A path with nothing to be read at it stops the reading only if
it is no path. A file at it stops the reading only if it is no text, as long as the reader refuses a
text only as malformed; and if the reader decodes the files that it reads, every file that is no
text and has less than two blocks of octets does so. -/
theorem store_unbroken_iff {a : Audience ι σ} (h : a.Lawful) (tree : Files.Tree) (more : Nat)
    (s : σ) :
    (Unbroken a tree more s ↔ ¬ ∃ f, Stops (a.store s).toOrigin tree f) ∧
      (∀ f signal rest, Stops (a.store s).toOrigin tree f → (a.store s).pending = signal :: rest →
        (a.process tree more s).value =
          (.error f, a.withStore s { a.store s with pending := rest })) ∧
      (∀ p, tree.octets (a.store s).path = .error p →
        ((∃ f, Stops (a.store s).toOrigin tree f) ↔ p.isNoPath = true)) ∧
      ∀ octets, tree.octets (a.store s).path = .ok octets →
        ((a.store s).reader.Orderly octets → (∃ f, Stops (a.store s).toOrigin tree f) →
          ¬ Utf8.IsText octets) ∧
        ((a.store s).reader.Decodes → ¬ Utf8.IsText octets →
          octets.length < 2 * Text.Stream.blockSize →
            ∃ p, Stops (a.store s).toOrigin tree (.decoding p)) := by
  refine ⟨⟨fun hunbroken => ?_, fun hstops => ?_⟩, ?_, ?_, ?_⟩
  · exact ((a.store s).load_answers_iff tree).mp hunbroken.load
  · refine
      { load := ((a.store s).load_answers_iff tree).mpr hstops
        get := ((a.store s).get_answers_iff tree).mpr (.inr hstops)
        process := (h.process_answers_iff more).mpr (.inr hstops)
        unread := fun hmapping => ?_ }
    have hnone := readDocument_eq_none_iff.mpr ⟨hstops, hmapping⟩
    have hload : ((a.store s).load tree).value = (.ok none, a.store s) := by
      rw [Store.load_value, hnone]
    exact ⟨hload, h.processUpTo_of_none _ rfl (Nat.le_add_right _ more) hnone⟩
  · intro f signal rest hstops hpending
    have hfuel : (a.store s).pending.length + more = rest.length + more + 1 := by
      rw [hpending, List.length_cons]
      omega
    rw [Audience.process, hfuel, h.processUpTo_of_stops _ hpending hstops]
  · intro p hp
    exact stops_iff_of_error hp
  · intro octets hoctets
    constructor
    · exact not_isText_of_stops hoctets
    · exact stops_of_short hoctets

end Config

theorem Mind.audience_lawful : Mind.audience.Lawful where
  store_withStore _ _ := rfl
  withStore_store _ := rfl
  withStore_withStore _ _ _ := rfl
  origin_react _ c m := congrArg Config.Store.toOrigin (m.renew_frame c).1

namespace Config

namespace Listening

theorem origin_subscribe (l : Listening) (name : String) (tree : Files.Tree) :
    (l.subscribe name tree).value.2.store.toOrigin = l.store.toOrigin := by
  simp only [subscribe, Report.value_bind, Report.value_pure, Store.watch]
  split
  · rfl
  · split <;> rfl

theorem store_ensure (l : Listening) (name : String) (r : Reaction) :
    (l.ensure name r).store = l.store := by
  unfold ensure
  split <;> rfl

/-- Whatever a named listener does, the file of the store stays where it is. -/
theorem audience_lawful (tree : Files.Tree) : (audience tree).Lawful where
  store_withStore _ _ := rfl
  withStore_store _ := rfl
  withStore_withStore _ _ _ := rfl
  origin_react name c l := by
    change (react tree name c l).value.2.store.toOrigin = l.store.toOrigin
    simp only [react]
    cases (l.reactions.lookup name).getD .record with
    | record => rfl
    | fail => rfl
    | unsubscribe target =>
      simp only [unsubscribe, Report.value_pure]
      rw [store_ensure]
      rfl
    | notify =>
      simp only [Report.value_pure]
      split <;> rfl
    | subscribe target =>
      simp only [Report.value_bind, Report.value_pure]
      rw [origin_subscribe, store_ensure]
    | unwatch => rfl

end Listening

/-- A store with two signals in its queue. -/
def queued : Listening where
  store := { path := { parts := ["heuristics.yaml"] }, pending := ["watcher", "manual"] }

/-- A tree with the file of that store. -/
def treeOf (octets : List Nat) : Files.Tree where
  entries := [(["heuristics.yaml"], .file octets (.counted 0))]

set_option maxRecDepth 100000 in
theorem octets_treeOf (octets : List Nat) :
    (treeOf octets).octets queued.store.path = .ok octets := rfl

/-- The octets of a list, which is no mapping. -/
def listOctets : List Nat := Utf8.encode "- a\n"

theorem store_unbroken_iff_list :
    Unbroken (Listening.audience (treeOf listOctets)) (treeOf listOctets) 0 queued ∧
      ((Listening.audience (treeOf listOctets)).process (treeOf listOctets) 0 queued).value =
        (.ok 0, { queued with store := { queued.store with pending := [] } }) := by
  have hread : (readDocument queued.store.toOrigin (treeOf listOctets)).value.toOption.any
      Option.isNone = true := by decide +kernel
  have hnone : (readDocument queued.store.toOrigin (treeOf listOctets)).value = .ok none := by
    generalize (readDocument queued.store.toOrigin (treeOf listOctets)).value = r at hread
    rcases r with f | _ | es
    · cases hread
    · rfl
    · cases hread
  obtain ⟨hstops, hmapping⟩ := readDocument_eq_none_iff.mp hnone
  have hiff := store_unbroken_iff (Listening.audience_lawful (treeOf listOctets))
    (treeOf listOctets) 0 queued
  have hunbroken := hiff.1.mpr hstops
  exact ⟨hunbroken, (hunbroken.unread hmapping).2⟩

/-- No character begins with this octet. -/
theorem not_isText_ff : ¬ Utf8.IsText [0xFF] := by
  intro htext
  obtain ⟨text, h⟩ := htext
  cases h

/-- A file with one octet that is no text: loading fails, and so does taking the queue, with the
second signal still in it. -/
theorem notText_breaks :
    ¬ Unbroken (Listening.audience (treeOf [0xFF])) (treeOf [0xFF]) 0 queued ∧
      ∃ f, (queued.store.load (treeOf [0xFF])).value = (.error f, queued.store) ∧
        ((Listening.audience (treeOf [0xFF])).process (treeOf [0xFF]) 0 queued).value =
          (.error f, { queued with store := { queued.store with pending := ["manual"] } }) := by
  obtain ⟨p, hp⟩ := stops_of_short (o := queued.store.toOrigin) (octets_treeOf [0xFF])
    Yaml.decodes_reader not_isText_ff (by decide)
  have hload : (queued.store.load (treeOf [0xFF])).value =
      (.error (.decoding p), queued.store) := by
    rw [Store.load_value, readDocument_of_stops hp]
  have hlawful := Listening.audience_lawful (treeOf [0xFF])
  refine ⟨fun hunbroken => ?_, .decoding p, hload, ?_⟩
  · exact (queued.store.load_answers_iff (treeOf [0xFF])).mp hunbroken.load ⟨_, hp⟩
  · exact hlawful.processUpTo_of_stops 1 (s := queued) rfl hp

end Config

end DecisionGate
