import DecisionGate.Config.Audience
import DecisionGate.Files.Edit

/-!
Named listeners at a store. A listener records that it was called and then does one thing: nothing,
fail, or act on the store. The watcher looks at the file after every edit for as long as it is on.
-/
namespace DecisionGate.Config

/-- What a listener does after it recorded a call. -/
inductive Reaction where
  | record
  | fail
  | unsubscribe (target : String)
  | notify
  | subscribe (target : String)
  | unwatch
  deriving DecidableEq, Repr

/-- A call of a listener. -/
structure Call where
  listener : String
  change : Change

/-- A store with its listeners; a listener keeps the reaction that it got first. -/
structure Listening where
  store : Store String
  reactions : List (String × Reaction) := []
  calls : List Call := []

namespace Listening

/-- Listeners ask for another reading only while there are fewer calls than this. -/
def callLimit : Nat := 3

def ensure (l : Listening) (name : String) (r : Reaction := .record) : Listening :=
  if (l.reactions.lookup name).isSome then l
  else { l with reactions := l.reactions ++ [(name, r)] }

def subscribe (l : Listening) (name : String) (tree : Files.Tree) :
    Report (Except Failure Unit × Listening) := do
  let (r, store) ← l.store.watch name tree
  pure (r, { l with store })

def watch (l : Listening) (name : String) (r : Reaction) (tree : Files.Tree) :
    Report (Except Failure Unit × Listening) :=
  (l.ensure name r).subscribe name tree

def unsubscribe (l : Listening) (name : String) : Bool × Listening :=
  let l := l.ensure name
  let (found, store) := l.store.unsubscribe name
  (found, { l with store })

def unwatch (l : Listening) : Report Listening := do
  let store ← l.store.unwatch
  pure { l with store }

def react (tree : Files.Tree) (name : String) (c : Change) (l : Listening) :
    Report (Bool × Listening) := do
  let call : Call := ⟨name, c⟩
  let l := { l with calls := l.calls ++ [call] }
  match (l.reactions.lookup name).getD .record with
  | .record => pure (true, l)
  | .fail => pure (false, l)
  | .unsubscribe target => pure (true, (l.unsubscribe target).2)
  | .notify =>
    let asks := l.calls.length < callLimit
    pure (true, if asks then { l with store := l.store.notify "again" } else l)
  | .subscribe target => do
    let (r, l) ← (l.ensure target).subscribe target tree
    pure (r.toBool, l)
  | .unwatch => do
    let l ← l.unwatch
    pure (true, l)

def audience (tree : Files.Tree) : Audience String Listening where
  store := Listening.store
  withStore l store := { l with store }
  react := react tree

def process (l : Listening) (tree : Files.Tree) : Report (Except Failure Nat × Listening) :=
  (audience tree).process tree callLimit l

/-- One look at the file, when the watcher is on. -/
def look (l : Listening) (tree : Files.Tree) : Report (Except Failure Unit × Listening) :=
  if !l.store.watching then pure (.ok (), l)
  else
    let (seen, store) := l.store.poll tree
    let l := { l with store }
    match seen with
    | .error f => pure (.error f, l)
    | .ok _ => do
      let (r, l) ← l.process tree
      pure (r.map fun _ => (), l)

/-- The state of a run of edits. A failure stops the watcher, but not the edits. -/
structure Run where
  listening : Listening
  tree : Files.Tree
  failure : Option Failure := none

/-- Makes each edit and lets the watcher look. An edit that cannot be made ends the run. -/
def follow : List Files.Edit → Run → Report (Except Failure Unit × Run)
  | [], r => pure (.ok (), r)
  | e :: rest, r =>
    match e.apply r.tree with
    | .error p => pure (.error (.file p), r)
    | .ok tree => do
      let r := { r with tree }
      match r.failure with
      | some _ => follow rest r
      | none => do
        let (seen, listening) ← r.listening.look tree
        let failure := match seen with
          | .ok _ => none
          | .error f => some f
        follow rest { r with listening, failure }

/-- Lets the watcher follow a list of edits, counts them, and stops it at the end if asked to. What
made the watcher fail is left in the run. -/
def followAll (l : Listening) (tree : Files.Tree) (edits : List Files.Edit) (stops : Bool) :
    Report (Except Failure Nat × Run) := do
  let (made, r) ← follow edits { listening := l, tree }
  match made with
  | .error f => pure (.error f, r)
  | .ok _ =>
    if stops then do
      let listening ← r.listening.unwatch
      pure (.ok edits.length, { r with listening })
    else pure (.ok edits.length, r)

/-- Runs the watcher over a list of edits. Here its failure is the failure of the whole. -/
def runWatcher (l : Listening) (tree : Files.Tree) (edits : List Files.Edit) :
    Report (Except Failure Nat × Run) := do
  let (n, r) ← l.followAll tree edits true
  match r.failure with
  | some f => pure (n.bind fun _ => .error f, r)
  | none => pure (n, r)

/-- Subscribes a listener and lets the watcher run beside the edits; nobody asks how it ended. -/
def watchBeside (l : Listening) (name : String) (reaction : Reaction) (tree : Files.Tree)
    (edits : List Files.Edit) : Report (Except Failure Nat × Run) := do
  let (subscribed, l) ← l.watch name reaction tree
  match subscribed with
  | .error f => pure (.error f, { listening := l, tree })
  | .ok _ => l.followAll tree edits true

/-- The watcher can be scheduled only from within an event loop; when it is off it is not. -/
def startWatcher (l : Listening) : Except Failure Bool :=
  if l.store.watching then .error .noEventLoop else .ok false

end Listening

end DecisionGate.Config
