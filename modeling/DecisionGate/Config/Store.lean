import DecisionGate.Config.Document

/-!
The store of the configuration document. It keeps the mapping that its file held when it was last
read with success, remembers the fingerprint that its watcher saw, and queues the signals of a
change until they are processed. Subscribers are told in the order in which they subscribed.
-/
namespace DecisionGate.Config

/-- `ι` is what the subscribers are known by. -/
structure Store (ι : Type) extends Origin where
  document : Option Document := none
  /-- How many documents were read; the number of the next one. -/
  reads : Nat := 0
  subscribers : List ι := []
  pending : List String := []
  watching : Bool := false
  fingerprint : Option Files.Fingerprint := none

namespace Store

variable {ι : Type}

/-- Keeps a mapping as the document. -/
def keep (s : Store ι) (es : Entries) : Document × Store ι :=
  let d : Document := ⟨s.reads, es⟩
  (d, { s with document := some d, reads := s.reads + 1 })

/-- Reports a new document with its version, unless that cannot be shown. -/
def noteVersion (name : String) (es : Entries) : Report Unit :=
  if ((es.get? "version").getD .null).hasText then noteInfo storeComponent name else pure ()

/-- Reads the file. Without success the document stays as it was. -/
def load (s : Store ι) (tree : Files.Tree) :
    Report (Except Failure (Option Document) × Store ι) := do
  note (.started "config_load")
  match ← readDocument s.toOrigin tree with
  | .error f => pure (.error f, s)
  | .ok none => do
    note (.ended "config_load")
    pure (.ok none, s)
  | .ok (some es) => do
    note (.ended "config_load")
    noteVersion "config_loaded" es
    let (d, s) := s.keep es
    pure (.ok (some d), s)

/-- The document, read when there is none yet. -/
def get (s : Store ι) (tree : Files.Tree) :
    Report (Except Failure (Option Document) × Store ι) :=
  match s.document with
  | some d => pure (.ok (some d), s)
  | none => s.load tree

/-- Adds a subscriber; the first one since the watcher stopped starts it. The watcher counts as
started even if its first look at the file fails. -/
def watch (s : Store ι) (i : ι) (tree : Files.Tree) : Report (Except Failure Unit × Store ι) :=
  let s := { s with subscribers := s.subscribers ++ [i] }
  if s.watching then pure (.ok (), s)
  else
    match tree.fingerprint s.path with
    | .error p => pure (.error (.file p), { s with watching := true })
    | .ok fingerprint => do
      noteInfo storeComponent "watcher_started"
      pure (.ok (), { s with watching := true, fingerprint })

/-- Removes the first of equal subscribers, and tells whether there was one. -/
def unsubscribe [BEq ι] (s : Store ι) (i : ι) : Bool × Store ι :=
  (s.subscribers.contains i, { s with subscribers := s.subscribers.erase i })

/-- Stops the watcher and drops every subscriber and signal. -/
def unwatch (s : Store ι) : Report (Store ι) := do
  noteInfo storeComponent "watcher_stopped"
  pure { s with watching := false, subscribers := [], pending := [] }

/-- Queues a signal, whatever the file holds. -/
def notify (s : Store ι) (source : String) : Store ι :=
  { s with pending := s.pending ++ [source] }

/-- Queues a signal when the file is another than at the last look. A file that went away is no
change; the next one in its place is. -/
def poll (s : Store ι) (tree : Files.Tree) : Except Failure Bool × Store ι :=
  match tree.fingerprint s.path with
  | .error p => (.error (.file p), s)
  | .ok seen =>
    if seen = s.fingerprint then (.ok false, s)
    else
      let s := { s with fingerprint := seen }
      if seen.isNone then (.ok false, s) else (.ok true, s.notify "watcher")

/-- Reads the file because of a signal; the document is replaced only with success. -/
def refresh (s : Store ι) (tree : Files.Tree) :
    Report (Except Failure (Option Change) × Store ι) := do
  noteInfo storeComponent "config_change_detected"
  match ← readDocument s.toOrigin tree with
  | .error f => pure (.error f, s)
  | .ok none => do
    noteWarning storeComponent "config_reload_failed"
    pure (.ok none, s)
  | .ok (some es) => do
    noteVersion "config_reloaded" es
    let (d, kept) := s.keep es
    pure (.ok (some ⟨d, s.document⟩), kept)

end Store

end DecisionGate.Config
