import DecisionGate.Yaml.Lexer
import DecisionGate.Yaml.Resolution

/-!
From the tokens of a document to its nodes. The nodes form a graph: an anchor names a node from
where it begins, and a reference is the same node once more, so a node can lie inside itself. Tokens
are looked at one after the other and no sooner than they are needed; what stopped the text counts
only when the reading gets there. The fuel is a multiple of the number of tokens: no more than four
calls go by without a token being taken.
-/
namespace DecisionGate.Yaml

/-- A node goes by its number in the graph. -/
abbrev NodeId := Nat

inductive Node where
  | scalar (tag : Tag) (text : String)
  | sequence (tag : Tag) (items : List NodeId)
  | mapping (tag : Tag) (pairs : List (NodeId × NodeId))
  deriving DecidableEq, Repr

instance : Inhabited Node := ⟨.scalar .null ""⟩

def Node.tag : Node → Tag
  | .scalar t _ => t
  | .sequence t _ => t
  | .mapping t _ => t

/-- The nodes by their numbers. -/
abbrev Graph := Array Node

namespace Graph

/-- What is left to read, the handles of tags, the nodes so far and those that have anchors. -/
structure State where
  rest : List Token
  stop : Option Problem := none
  handles : List (String × String) := []
  anchors : List (String × NodeId) := []
  graph : Graph := #[]

namespace State

def next (s : State) : State := { s with rest := s.rest.tail }

/-- The token that comes next; none at the end of the text. -/
def peek (s : State) : Read (Option Token) :=
  match s.rest, s.stop with
  | t :: _, _ => .ok (some t)
  | [], some p => .error p
  | [], none => .ok none

def isAt (s : State) (t : Token) : Read Bool := do
  let head ← s.peek
  .ok (head == some t)

def isAtOneOf (s : State) (ts : List Token) : Read Bool := do
  let head ← s.peek
  .ok (ts.any fun t => head == some t)

def expect (s : State) (t : Token) : Read State := do
  if ← s.isAt t then .ok s.next else .error .malformed

/-- Adds a node. -/
def add (s : State) (n : Node) : NodeId × State :=
  (s.graph.size, { s with graph := s.graph.push n })

/-- Completes a node that was added when it began. -/
def complete (s : State) (i : NodeId) (n : Node) : State := { s with graph := s.graph.set! i n }

/-- A missing node stands for null. -/
def addMissing (s : State) : NodeId × State := s.add (.scalar .null "")

/-- A reference to a node that has begun. -/
def referTo (s : State) (name : String) : Read (NodeId × State) :=
  match s.anchors.lookup name with
  | some i => .ok (i, s.next)
  | none => .error .malformed

/-- An anchor names one node only. -/
def checkAnchor (s : State) : Option String → Read Unit
  | none => .ok ()
  | some a => if (s.anchors.lookup a).isSome then .error .malformed else .ok ()

def bindAnchor (s : State) (i : NodeId) : Option String → State
  | none => s
  | some a => { s with anchors := (a, i) :: s.anchors }

end State

/-- The anchor and the tag before a node, in either order. -/
structure Properties where
  anchor : Option String := none
  tag : Option TagText := none

def takeAnchor (s : State) : Read (Option String × State) := do
  match ← s.peek with
  | some (.anchor a) => .ok (some a, s.next)
  | _ => .ok (none, s)

def takeTag (s : State) : Read (Option TagText × State) := do
  match ← s.peek with
  | some (.tag t) => .ok (some t, s.next)
  | _ => .ok (none, s)

def properties (s : State) : Read (Properties × State) := do
  match ← takeAnchor s with
  | (some a, s) =>
    let (tag, s) ← takeTag s
    .ok (⟨some a, tag⟩, s)
  | (none, s) =>
    match ← takeTag s with
    | (some t, s) =>
      let (anchor, s) ← takeAnchor s
      .ok (⟨anchor, some t⟩, s)
    | (none, s) => .ok ({}, s)

/-- The full name of a tag, none for a tag that leaves the kind open. -/
def tagName (s : State) (t : TagText) : Read (Option String) :=
  match t.handle with
  | none => .ok (if t.suffix = "!" then none else some t.suffix)
  | some h =>
    match s.handles.lookup h with
    | none => .error .malformed
    | some uri => .ok (some (uri ++ t.suffix))

/-- What the properties before a node say about its tag. -/
inductive Given where
  | absent
  | unspecific
  | named (t : Tag)

def given (s : State) (p : Properties) : Read Given :=
  match p.tag with
  | none => .ok .absent
  | some t => do
    match ← tagName s t with
    | none => .ok .unspecific
    | some name => .ok (.named (Tag.ofName name))

/-- The tag of a scalar. Only a plain one, or one whose tag leaves its kind open, goes by its
text. -/
def scalarTag (g : Given) (plain : Bool) (text : String) : Tag :=
  match g with
  | .named t => t
  | .unspecific => Tag.ofText text
  | .absent => if plain then Tag.ofText text else .text

def collectionTag (g : Given) (usual : Tag) : Tag :=
  match g with
  | .named t => t
  | _ => usual

/-- Where a node may stand: in a flow collection, in a block, or as a value in a block mapping,
which may be a sequence that is not indented. -/
inductive Place where
  | flow
  | block
  | value
  deriving DecidableEq, Repr

def Place.isBlock (p : Place) : Bool := p != .flow

/-- What a node is, by the token that follows its properties. -/
inductive Shape where
  | scalar (text : String) (plain : Bool)
  | flowSequence
  | flowMapping
  | blockSequence
  | blockMapping
  /-- A sequence that is not indented; its first dash is not taken yet. -/
  | looseSequence

def Shape.isCollection : Shape → Bool
  | .scalar _ _ => false
  | _ => true

/-- The shape of a node, with the place after the token that shows it. With properties a node may be
missing. -/
def shape (place : Place) (p : Properties) (s : State) : Read (Shape × State) := do
  let missing : Read (Shape × State) :=
    if p.anchor.isSome || p.tag.isSome then .ok (.scalar "" true, s) else .error .malformed
  match ← s.peek with
  | some (.scalar text plain) => .ok (.scalar text plain, s.next)
  | some .flowSequence => .ok (.flowSequence, s.next)
  | some .flowMapping => .ok (.flowMapping, s.next)
  | some .blockSequence => if place.isBlock then .ok (.blockSequence, s.next) else missing
  | some .blockMapping => if place.isBlock then .ok (.blockMapping, s.next) else missing
  | some .blockEntry => if place = .value then .ok (.looseSequence, s) else missing
  | _ => missing

/-- What may follow a key, a colon or a dash that has no node. -/
def afterBlockKey : List Token := [.key, .value, .blockEnd]

def afterBlockEntry : List Token := [.blockEntry, .blockEnd]

def afterLooseEntry : List Token := [.blockEntry, .key, .value, .blockEnd]

/-- So many collections may be open at once. -/
def deepest : Nat := 487

mutual

/-- The node that begins here; `room` is the number of collections that may still open. -/
def node (fuel room : Nat) (place : Place) (s : State) : Read (NodeId × State) :=
  match fuel with
  | 0 => .error .malformed
  | fuel + 1 => do
    match ← s.peek with
    | some (.reference name) => s.referTo name
    | _ =>
      let (p, s) ← properties s
      let g ← given s p
      let (shape, s) ← shape place p s
      s.checkAnchor p.anchor
      if shape.isCollection && room = 0 then .error .tooDeep
      else content fuel (room - 1) shape p g s

def content (fuel room : Nat) (shape : Shape) (p : Properties) (g : Given) (s : State) :
    Read (NodeId × State) :=
  match fuel with
  | 0 => .error .malformed
  | fuel + 1 =>
    let (i, s) := s.addMissing
    let s := s.bindAnchor i p.anchor
    match shape with
    | .scalar text plain => .ok (i, s.complete i (.scalar (scalarTag g plain text) text))
    | .flowSequence => do
      let (items, s) ← flowItems fuel room true s
      .ok (i, s.complete i (.sequence (collectionTag g .sequence) items))
    | .flowMapping => do
      let (pairs, s) ← flowPairs fuel room true s
      .ok (i, s.complete i (.mapping (collectionTag g .mapping) pairs))
    | .blockSequence => do
      let (items, s) ← blockItems fuel room s
      .ok (i, s.complete i (.sequence (collectionTag g .sequence) items))
    | .blockMapping => do
      let (pairs, s) ← blockPairs fuel room s
      .ok (i, s.complete i (.mapping (collectionTag g .mapping) pairs))
    | .looseSequence => do
      let (items, s) ← looseItems fuel room s
      .ok (i, s.complete i (.sequence (collectionTag g .sequence) items))

/-- A node, or the missing one when one of these tokens comes next. -/
def nodeUnless (fuel room : Nat) (place : Place) (stops : List Token) (s : State) :
    Read (NodeId × State) :=
  match fuel with
  | 0 => .error .malformed
  | fuel + 1 => do
    if ← s.isAtOneOf stops then .ok s.addMissing else node fuel room place s

def blockItems (fuel room : Nat) (s : State) : Read (List NodeId × State) :=
  match fuel with
  | 0 => .error .malformed
  | fuel + 1 => do
    if ← s.isAt .blockEntry then
      let (n, s) ← nodeUnless fuel room .block afterBlockEntry s.next
      let (ns, s) ← blockItems fuel room s
      .ok (n :: ns, s)
    else
      let s ← s.expect .blockEnd
      .ok ([], s)

/-- The items of a sequence that is not indented end where no dash comes next. -/
def looseItems (fuel room : Nat) (s : State) : Read (List NodeId × State) :=
  match fuel with
  | 0 => .error .malformed
  | fuel + 1 => do
    if ← s.isAt .blockEntry then
      let (n, s) ← nodeUnless fuel room .block afterLooseEntry s.next
      let (ns, s) ← looseItems fuel room s
      .ok (n :: ns, s)
    else .ok ([], s)

def blockPairs (fuel room : Nat) (s : State) : Read (List (NodeId × NodeId) × State) :=
  match fuel with
  | 0 => .error .malformed
  | fuel + 1 => do
    if ← s.isAt .key then
      let (k, s) ← nodeUnless fuel room .value afterBlockKey s.next
      let (v, s) ← valueUnless fuel room .value afterBlockKey s
      let (ps, s) ← blockPairs fuel room s
      .ok ((k, v) :: ps, s)
    else
      let s ← s.expect .blockEnd
      .ok ([], s)

/-- The value of a key; without a colon it is missing. -/
def valueUnless (fuel room : Nat) (place : Place) (stops : List Token) (s : State) :
    Read (NodeId × State) :=
  match fuel with
  | 0 => .error .malformed
  | fuel + 1 => do
    if ← s.isAt .value then nodeUnless fuel room place stops s.next else .ok s.addMissing

/-- The items of a flow sequence; a key among them begins a mapping of one pair. -/
def flowItems (fuel room : Nat) (first : Bool) (s : State) : Read (List NodeId × State) :=
  match fuel with
  | 0 => .error .malformed
  | fuel + 1 => do
    if ← s.isAt .flowSequenceEnd then .ok ([], s.next)
    else
      let s ← if first then .ok s else s.expect .flowEntry
      if ← s.isAt .flowSequenceEnd then .ok ([], s.next)
      else
        let (n, s) ←
          if ← s.isAt .key then singlePair fuel room s.next else node fuel room .flow s
        let (ns, s) ← flowItems fuel room false s
        .ok (n :: ns, s)

/-- A mapping of one pair, after the token of its key. -/
def singlePair (fuel room : Nat) (s : State) : Read (NodeId × State) :=
  match fuel with
  | 0 => .error .malformed
  | fuel + 1 => do
    if room = 0 then .error .tooDeep
    else
      let stops := [Token.flowEntry, .flowSequenceEnd]
      let (i, s) := s.addMissing
      let (k, s) ← nodeUnless fuel (room - 1) .flow (.value :: stops) s
      let (v, s) ← valueUnless fuel (room - 1) .flow stops s
      let _ ← s.peek
      .ok (i, s.complete i (.mapping .mapping [(k, v)]))

/-- The pairs of a flow mapping; something that is no key has no value. -/
def flowPairs (fuel room : Nat) (first : Bool) (s : State) :
    Read (List (NodeId × NodeId) × State) :=
  match fuel with
  | 0 => .error .malformed
  | fuel + 1 => do
    if ← s.isAt .flowMappingEnd then .ok ([], s.next)
    else
      let s ← if first then .ok s else s.expect .flowEntry
      if ← s.isAt .flowMappingEnd then .ok ([], s.next)
      else if ← s.isAt .key then
        let stops := [Token.flowEntry, .flowMappingEnd]
        let (k, s) ← nodeUnless fuel room .flow (.value :: stops) s.next
        let (v, s) ← valueUnless fuel room .flow stops s
        let (ps, s) ← flowPairs fuel room false s
        .ok ((k, v) :: ps, s)
      else
        let (k, s) ← node fuel room .flow s
        let _ ← s.peek
        let (v, s) := s.addMissing
        let (ps, s) ← flowPairs fuel room false s
        .ok ((k, v) :: ps, s)

end

def standardHandles : List (String × String) := [("!", "!"), ("!!", Tag.standard)]

/-- The directives before a document; only one version, and no handle twice. -/
def directives (versioned : Bool) (handles : List (String × String)) (s : State) :
    List Token → Read State
  | .directive (.version major) :: rest =>
    if versioned || major != 1 then .error .malformed
    else directives true handles { s with rest } rest
  | .directive (.handle name uri) :: rest =>
    if (handles.lookup name).isSome then .error .malformed
    else directives versioned ((name, uri) :: handles) { s with rest } rest
  | .directive .other :: rest => directives versioned handles { s with rest } rest
  | rest => .ok { s with rest, handles := handles ++ standardHandles }

/-- Whether a document without content ends here. -/
def isEmptyDocument : Option Token → Bool
  | none => true
  | some (.directive _) => true
  | some .documentStart => true
  | some .documentEnd => true
  | _ => false

/-- A document with its start written out. -/
def explicitDocument (fuel : Nat) (s : State) : Read (NodeId × State) := do
  let s ← directives false [] s s.rest
  let s ← s.expect .documentStart
  if isEmptyDocument (← s.peek) then .ok s.addMissing else node fuel deepest .block s

/-- Goes on over the ends of documents, to the end of the text and nothing else. -/
def finish : List Token → State → Read Unit
  | .documentEnd :: rest, s => finish rest { s with rest }
  | rest, s => do
    match ← { s with rest := rest }.peek with
    | none => .ok ()
    | some (.directive _) => do
      let s ← directives false [] { s with rest } rest
      let _ ← s.peek
      .error .malformed
    | some _ => .error .malformed

/-- The only document of some tokens, with its root; a text without one has none. -/
def ofScan? (scan : Lexer.Scan) : Read (Option (NodeId × Graph)) := do
  let fuel := 4 * scan.tokens.length + 4
  let s : State := { rest := scan.tokens, stop := scan.stop, handles := standardHandles }
  match ← s.peek with
  | none => .ok none
  | some t =>
    let (root, s) ← match t with
      | .directive _ => explicitDocument fuel s
      | .documentStart => explicitDocument fuel s
      | _ => node fuel deepest .block s
    finish s.rest s
    .ok (some (root, s.graph))

end Graph

end DecisionGate.Yaml
