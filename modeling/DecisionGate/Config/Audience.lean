import DecisionGate.Config.Store

/-!
Processing the queued signals. What a subscriber does when it is told of a change is up to the state
around the store, so the audience of a store says where the store lies in that state and how each
subscriber acts on it. A subscriber that fails is reported and keeps no other from being told.
-/
namespace DecisionGate.Config

/-- `ι` names the subscribers, `σ` is the state that they act on and that the store is part of. -/
structure Audience (ι σ : Type) where
  store : σ → Store ι
  withStore : σ → Store ι → σ
  /-- What a subscriber does, and whether it came through. -/
  react : ι → Change → σ → Report (Bool × σ)

namespace Audience

variable {ι σ : Type}

def tell (a : Audience ι σ) (c : Change) : List ι → σ → Report σ
  | [], s => pure s
  | i :: rest, s => do
    let (ok, s) ← a.react i c s
    if !ok then noteError storeComponent "subscriber_failed"
    a.tell c rest s

/-- Reads the file because of one signal, and tells those who had subscribed before of a new
document. The answer is whether there was one. -/
def handle (a : Audience ι σ) (tree : Files.Tree) (s : σ) : Report (Except Failure Bool × σ) := do
  let (r, store) ← (a.store s).refresh tree
  let s := a.withStore s store
  match r with
  | .error f => pure (.error f, s)
  | .ok none => pure (.ok false, s)
  | .ok (some c) => do
    let s ← a.tell c store.subscribers s
    pure (.ok true, s)

/-- Takes up to `fuel` signals, one at a time, and counts those that gave a new document. -/
def processUpTo (a : Audience ι σ) (tree : Files.Tree) :
    Nat → σ → Report (Except Failure Nat × σ)
  | 0, s => pure (.ok 0, s)
  | fuel + 1, s =>
    match (a.store s).pending with
    | [] => pure (.ok 0, s)
    | _ :: rest => do
      let (r, s) ← a.handle tree (a.withStore s { a.store s with pending := rest })
      match r with
      | .error f => pure (.error f, s)
      | .ok applied => do
        let (n, s) ← a.processUpTo tree fuel s
        pure (n.map (· + applied.toNat), s)

/-- Takes every queued signal; `more` bounds the number of those that subscribers add. -/
def process (a : Audience ι σ) (tree : Files.Tree) (more : Nat) (s : σ) :
    Report (Except Failure Nat × σ) :=
  a.processUpTo tree ((a.store s).pending.length + more) s

end Audience

end DecisionGate.Config
