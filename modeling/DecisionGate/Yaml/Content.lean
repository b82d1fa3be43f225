import DecisionGate.Value.Basic
import DecisionGate.Yaml.Node
import DecisionGate.Yaml.Numeral

/-!
What the nodes of a document come to. Scalars are read when they are met. A collection is only begun
then, and its parts are met once everything above it was, so of several faults the one nearest to
the root counts, and of those the first. A merge key gives way to the pairs that it brings, which
come before the others; since the mappings that it names are changed in the same way first, and
since a mapping can merge itself, this works on the graph.
-/
namespace DecisionGate.Yaml

abbrev NodePair := NodeId × NodeId

/-- What a node came to; the parts of a collection go by their numbers. -/
inductive Content where
  | scalar (k : Key)
  | list (items : List NodeId)
  | map (entries : List (Key × NodeId))
  | pairs (pairs : List NodePair)

namespace Graph

def nodeAt (g : Graph) (i : NodeId) : Node := (g[i]?).getD default

/-- The pairs of a mapping. -/
def pairs (g : Graph) (i : NodeId) : List NodePair :=
  match g.nodeAt i with
  | .mapping _ ps => ps
  | _ => []

def setPairs (g : Graph) (i : NodeId) (ps : List NodePair) : Graph :=
  match g.nodeAt i with
  | .mapping t _ => g.setIfInBounds i (.mapping t ps)
  | _ => g

def retag (g : Graph) (i : NodeId) (t : Tag) : Graph :=
  g.setIfInBounds i <| match g.nodeAt i with
    | .scalar _ s => .scalar t s
    | .sequence _ items => .sequence t items
    | .mapping _ ps => .mapping t ps

/-- The text of a node that a scalar is asked of: its own, or that of its default entry. An entry
that leads back to itself is followed to the end of the stack. -/
def text (g : Graph) : Nat → NodeId → Read String
  | 0, _ => .error .tooDeep
  | fuel + 1, i =>
    match g.nodeAt i with
    | .scalar _ s => .ok s
    | .sequence _ _ => .error .malformed
    | .mapping _ ps =>
      match ps.find? fun p => (g.nodeAt p.1).tag = .scalarKey with
      | some (_, v) => g.text fuel v
      | none => .error .malformed

end Graph

/-- How the scalars of a kind are read; other kinds have none. -/
def Tag.reader? : Tag → Option (String → Except TagProblem Key)
  | .null => some fun _ => .ok .null
  | .bool => some fun s => (readFlag s).map .bool
  | .int => some fun s => (readInteger s).map .int
  | .float => some fun s => (readDouble s).map .float
  | .text => some fun s => .ok (.str s)
  | _ => none

/-- The graph with what came of its nodes so far. -/
structure Building where
  graph : Graph
  contents : Array (Option Content)
  /-- The collections in the order in which they were met. -/
  begun : Array NodeId := #[]
  /-- The mappings that have no merge keys any more. -/
  merged : List NodeId := []

abbrev Build := StateT Building Read

namespace Building

def ofGraph (g : Graph) : Building := { graph := g, contents := Array.replicate g.size none }

def content? (b : Building) (i : NodeId) : Option Content := (b.contents[i]?).join

def key? (b : Building) (i : NodeId) : Option Key :=
  match b.content? i with
  | some (.scalar k) => some k
  | _ => none

def put (b : Building) (i : NodeId) (c : Content) : Building :=
  { b with contents := b.contents.setIfInBounds i (some c) }

def begin (b : Building) (i : NodeId) (c : Content) : Building :=
  { b.put i c with begun := b.begun.push i }

/-- Reads a node whose tag says that it is a scalar. -/
def readScalar (b : Building) (i : NodeId) (t : Tag) : Read Key := do
  match t.reader? with
  | none => .error .malformed
  | some read =>
    let s ← b.graph.text (b.graph.size + 1) i
    (read s).mapError .scalar

/-- Meets a node. A collection is begun by its tag, whatever the node is. -/
def meet (i : NodeId) : Build Unit := do
  let b ← get
  if (b.content? i).isNone then
    match (b.graph.nodeAt i).tag with
    | .sequence => set (b.begin i (.list []))
    | .mapping => set (b.begin i (.map []))
    | .pairs => set (b.begin i (.pairs []))
    | t =>
      let k ← b.readScalar i t
      set (b.put i (.scalar k))

/-- The pairs of a mapping that is merged into another one, after its own merges. -/
def mergedPairs (mergeInto : NodeId → Build Unit) (i : NodeId) : Build (List NodePair) := do
  match (← get).graph.nodeAt i with
  | .mapping _ _ =>
    mergeInto i
    pure ((← get).graph.pairs i)
  | _ => throw .malformed

/-- The pairs that the value of a merge key brings. Of a list the first mapping comes last. -/
def brought (mergeInto : NodeId → Build Unit) (i : NodeId) : Build (List NodePair) := do
  match (← get).graph.nodeAt i with
  | .mapping _ _ => mergedPairs mergeInto i
  | .sequence _ items =>
    let found ← items.mapM (mergedPairs mergeInto)
    pure found.reverse.flatten
  | .scalar _ _ => throw .malformed

/-- Goes through the pairs of a mapping and takes its merge keys away, for the pairs that they
bring; `kept` are those before, the last one first. Where the mapping merges itself, all of it is
done when that ends. The key of a scalar becomes a text. -/
def takeMerges (mergeInto : NodeId → Build Unit) (i : NodeId) (kept : List NodePair) :
    List NodePair → Build (List NodePair)
  | [] => pure []
  | (k, v) :: rest => do
    match ((← get).graph.nodeAt k).tag with
    | .merge =>
      modify fun b => { b with graph := b.graph.setPairs i (kept.reverse ++ rest) }
      let found ← brought mergeInto v
      if (← get).merged.contains i then pure found
      else
        let more ← takeMerges mergeInto i kept rest
        pure (found ++ more)
    | .scalarKey =>
      modify fun b => { b with graph := b.graph.retag k .text }
      takeMerges mergeInto i ((k, v) :: kept) rest
    | _ => takeMerges mergeInto i ((k, v) :: kept) rest

/-- Puts what its merge keys bring into a mapping. A merge key is gone before what it names is
looked at, so the depth is no greater than their number. -/
def merge : Nat → NodeId → Build Unit
  | 0, _ => throw .tooDeep
  | fuel + 1, i => do
    let b ← get
    if !b.merged.contains i then
      let found ← takeMerges (merge fuel) i [] (b.graph.pairs i)
      modify fun b =>
        { b with graph := b.graph.setPairs i (found ++ b.graph.pairs i), merged := i :: b.merged }

/-- An entry of a mapping; its key has to be a scalar. -/
def entry (p : NodePair) : Build (Key × NodeId) := do
  meet p.1
  match (← get).key? p.1 with
  | none => throw .malformed
  | some k =>
    meet p.2
    pure (k, p.2)

/-- A pair, written as a mapping of one. -/
def singlePair (i : NodeId) : Build NodePair := do
  match (← get).graph.nodeAt i with
  | .mapping _ [p] =>
    meet p.1
    meet p.2
    pure p
  | _ => throw .malformed

/-- Meets the parts of a collection that was begun. -/
def complete (depth : Nat) (i : NodeId) : Build Unit := do
  let b ← get
  match b.content? i, b.graph.nodeAt i with
  | some (.list _), .sequence _ items =>
    items.forM meet
    modify fun b => b.put i (.list items)
  | some (.map _), .mapping _ _ =>
    merge depth i
    let entries ← ((← get).graph.pairs i).mapM entry
    modify fun b => b.put i (.map entries)
  | some (.pairs _), .sequence _ items =>
    let pairs ← items.mapM singlePair
    modify fun b => b.put i (.pairs pairs)
  | _, _ => throw .malformed

/-- Completes the collections from a place on in the order in which they were begun. -/
def completeFrom (depth : Nat) : Nat → Nat → Build Unit
  | 0, _ => pure ()
  | fuel + 1, n => do
    match (← get).begun[n]? with
    | none => pure ()
    | some i =>
      complete depth i
      completeFrom depth fuel (n + 1)

end Building

/-- How many pairs the mappings of a graph have together. -/
def Graph.pairCount (g : Graph) : Nat :=
  g.foldl (fun n x => match x with
    | .mapping _ ps => n + ps.length
    | _ => n) 0

/-- What every node that can be reached from the root comes to. A node is begun only once. -/
def Graph.contents (g : Graph) (root : NodeId) : Read (Array (Option Content)) := do
  let build : Build Unit := do
    Building.meet root
    Building.completeFrom (g.pairCount + 1) g.size 0
  let (_, b) ← build.run (.ofGraph g)
  .ok b.contents

end DecisionGate.Yaml
