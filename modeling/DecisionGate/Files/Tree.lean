import DecisionGate.Files.Path
import DecisionGate.Files.Problem
import DecisionGate.Text.Utf8

/-!
A tree of files as a value. Every write gives a file a stamp: a later one than any before, or one
that the writer chose. The stamp together with the size is the fingerprint that a watcher goes by.
-/
namespace DecisionGate.Files

/-- When something was changed: the count of a change or a chosen time in nanoseconds. -/
inductive Stamp where
  | counted (n : Nat)
  | chosen (nanoseconds : Int)
  deriving DecidableEq, Repr

structure Fingerprint where
  stamp : Stamp
  size : Nat
  deriving DecidableEq, Repr

inductive Entry where
  | file (octets : List Nat) (stamp : Stamp)
  | directory (stamp : Stamp)
  deriving DecidableEq, Repr

def Entry.isDirectory : Entry → Bool
  | .directory _ => true
  | .file _ _ => false

def Entry.fingerprint : Entry → Fingerprint
  | .file octets stamp => ⟨stamp, octets.length⟩
  | .directory stamp => ⟨stamp, 0⟩

/-- The way to an entry from one of the two roots: absolute and relative paths have separate ones.
-/
abbrev Way := List String

def absoluteRoot : Way := ["/"]

/-- The roots themselves are always there, and so is what is above the relative one. -/
def isRoot (way : Way) : Bool := way.all (· = "..") || way = absoluteRoot

/-- The directory above. Above the absolute root there is none but itself. -/
def above (way : Way) : Way :=
  if way = absoluteRoot then way else if isRoot way then way ++ [".."] else way.dropLast

/-- One component further. -/
def stepFrom (way : Way) (step : String) : Way := if step = ".." then above way else way ++ [step]

def rootOf (p : Path) : Way := if p.isAbsolute then absoluteRoot else []

/-- No component of a path takes more octets. -/
def longestName : Nat := 255

/-- The text of a path takes fewer octets than this. -/
def pathLimit : Nat := 4096

/-- Names can hold octets that are no characters; these are the halves that stand for them. -/
def isLooseOctet (half : Nat) : Bool := 0xDC80 ≤ half && half ≤ 0xDCFF

/-- What is wrong with a path whatever the tree holds. -/
def faultOf? (p : Path) : Option Problem :=
  match Utf8.gap? isLooseOctet p.text with
  | some g => some (.unwritable g)
  | none =>
    if p.text.toList.contains '\x00' then some .nullCharacter
    else if pathLimit ≤ p.text.utf8ByteSize then some (.nameTooLong p.text)
    else none

structure Tree where
  entries : List (Way × Entry) := []
  changes : Nat := 0
  deriving DecidableEq, Repr

namespace Tree

def entry? (t : Tree) (way : Way) : Option Entry :=
  if isRoot way then some (.directory (.counted 0)) else t.entries.lookup way

/-- Goes down from an entry, component by component. Only what lies in a directory is found. -/
def walk (t : Tree) (path : String) (reached : Way) : List String → Except Problem Way
  | [] => .ok reached
  | step :: rest =>
    match t.entry? reached with
    | none => .error (.absent path)
    | some e =>
      if !e.isDirectory then .error (.notDirectory path)
      else if longestName < step.utf8ByteSize then .error (.nameTooLong path)
      else walk t path (stepFrom reached step) rest

/-- The way that a path leads, whether or not there is something at its end. -/
def wayTo (t : Tree) (p : Path) : Except Problem Way :=
  match faultOf? p with
  | some problem => .error problem
  | none => t.walk p.text (rootOf p) p.parts

def find (t : Tree) (p : Path) : Except Problem Entry := do
  let way ← t.wayTo p
  match t.entry? way with
  | some e => .ok e
  | none => .error (.absent p.text)

def octets (t : Tree) (p : Path) : Except Problem (List Nat) := do
  match ← t.find p with
  | .file octets _ => .ok octets
  | .directory _ => .error (.directory p.text)

/-- Whether there is a directory at a path; only a name that is too long cannot be asked for. -/
def isDirectory (t : Tree) (p : Path) : Except Problem Bool :=
  match t.find p with
  | .ok e => .ok e.isDirectory
  | .error (.nameTooLong path) => .error (.nameTooLong path)
  | .error _ => .ok false

/-- The fingerprint of what is at a path, if there is anything; a path that cannot be one is an
error. -/
def fingerprint (t : Tree) (p : Path) : Except Problem (Option Fingerprint) :=
  match t.find p with
  | .ok e => .ok (some e.fingerprint)
  | .error p => if p.isNoPath then .error p else .ok none

/-- Puts an entry at a way, in the place of what was there. -/
def putEntry (way : Way) (e : Entry) : List (Way × Entry) → List (Way × Entry)
  | [] => [(way, e)]
  | (w, f) :: rest => if w = way then (way, e) :: rest else (w, f) :: putEntry way e rest

/-- A directory is changed when something in it comes or goes. -/
def touchParent (t : Tree) (way : Way) : Tree :=
  let touch (p : Way × Entry) : Way × Entry :=
    match p with
    | (w, .directory _) => if w = way.dropLast then (w, .directory (.counted t.changes)) else p
    | p => p
  { t with entries := t.entries.map touch }

def put (t : Tree) (way : Way) (e : Entry) : Tree :=
  let isNew := (t.entry? way).isNone
  let t := { t with entries := putEntry way e t.entries }
  if isNew then t.touchParent way else t

def erase (t : Tree) (way : Way) : Tree :=
  { t with entries := t.entries.filter fun p => !way.isPrefixOf p.1 }.touchParent way

/-- Counts one change. -/
def tick (t : Tree) : Tree := { t with changes := t.changes + 1 }

/-- Makes the directories of a path that are missing, from the top down. -/
def makeWay (t : Tree) (path : String) (reached : Way) : List String → Except Problem Tree
  | [] => .ok t
  | step :: rest =>
    let way := stepFrom reached step
    if longestName < step.utf8ByteSize then .error (.nameTooLong path)
    else
      match t.entry? way with
      | some (.directory _) => makeWay t path way rest
      | some (.file _ _) => .error (if rest.isEmpty then .exists path else .notDirectory path)
      | none => makeWay (t.put way (.directory (.counted t.changes))) path way rest

/-- Makes a directory with all above it. One that is there already stays as it is. -/
def makeDirectory (t : Tree) (p : Path) : Except Problem Tree :=
  match faultOf? p with
  | some problem => .error problem
  | none => t.tick.makeWay p.text (rootOf p) p.parts

/-- Writes a file, with the directories above it. -/
def write (t : Tree) (p : Path) (octets : List Nat) (time : Option Int := none) :
    Except Problem Tree := do
  let t ← t.makeDirectory p.parent
  let stamp := match time with
    | some n => Stamp.chosen n
    | none => .counted t.changes
  match t.find p with
  | .ok (.directory _) => .error (.directory p.text)
  | _ =>
    let way ← t.wayTo p
    .ok (t.put way (.file octets stamp))

def delete (t : Tree) (p : Path) : Except Problem Tree := do
  match ← t.find p with
  | .directory _ => .error (.directory p.text)
  | .file _ _ =>
    let way ← t.wayTo p
    .ok (t.tick.erase way)

def removeTree (t : Tree) (p : Path) : Except Problem Tree := do
  match ← t.find p with
  | .directory _ =>
    let way ← t.wayTo p
    .ok (t.tick.erase way)
  | .file _ _ => .error (.notDirectory p.text)

end Tree

end DecisionGate.Files
