import DecisionGate.Value.Keyed
import DecisionGate.Yaml.Content
import DecisionGate.Yaml.Lexer

/-!
From what the nodes of a document come to, to its value. A value is a tree, so what is named twice
is there twice; a collection that lies inside itself is shown so often that every rule that looks at
a fixed depth finds what it looks for, and then stands as endless.
-/
namespace DecisionGate.Yaml

/-- From this depth on nothing is shown inside itself again. -/
def shownDepth : Nat := 6

/-- The value of a node below a path of others; `apart` tells whether one of them is a list of
pairs. -/
def unfold (contents : Array (Option Content)) :
    Nat → List NodeId → Bool → NodeId → Value
  | 0, _, _, _ => .null
  | fuel + 1, path, apart, i =>
    if shownDepth ≤ path.length && path.contains i then .endless apart
    else
      let inner (apart : Bool) (j : NodeId) : Value := unfold contents fuel (i :: path) apart j
      match (contents[i]?).join with
      | none => .null
      | some (.scalar k) => k.toValue
      | some (.list items) => .list (items.map (inner apart))
      | some (.map entries) => .map (Entries.ofList (entries.map fun e => (e.1, inner apart e.2)))
      | some (.pairs ps) => .list (ps.map fun p => .list [inner true p.1, inner true p.2])

/-- Reads the only document of a source; no document counts as null. A path without repetition is no
longer than there are nodes. -/
def read (source : Source) : Read Value := do
  match ← Graph.ofScan? (tokens source) with
  | none => .ok .null
  | some (root, g) =>
    let contents ← g.contents root
    .ok (unfold contents (g.size + shownDepth + 1) [] false root)

theorem keyed_unfold (contents : Array (Option Content)) (fuel : Nat) (path : List NodeId)
    (apart : Bool) (i : NodeId) : (unfold contents fuel path apart i).Keyed := by
  induction fuel generalizing path apart i with
  | zero => exact .null
  | succ fuel ih =>
    unfold unfold
    split
    · exact .endless apart
    · split
      · exact .null
      · exact Value.keyed_toValue _
      · refine .list fun x hx => ?_
        obtain ⟨j, -, rfl⟩ := List.mem_map.mp hx
        exact ih (i :: path) apart j
      · refine Value.keyed_ofList fun e he => ?_
        obtain ⟨p, -, rfl⟩ := List.mem_map.mp he
        exact ih (i :: path) apart p.2
      · refine .list fun x hx => ?_
        obtain ⟨p, -, rfl⟩ := List.mem_map.mp hx
        refine .list fun y hy => ?_
        rcases List.mem_cons.mp hy with rfl | hy
        · exact ih (i :: path) true p.1
        · obtain rfl := List.mem_singleton.mp hy
          exact ih (i :: path) true p.2

theorem keyed_read {source : Source} {v : Value} (h : read source = .ok v) : v.Keyed := by
  unfold read at h
  cases hscan : Graph.ofScan? (tokens source) with
  | error p =>
    rw [hscan] at h
    cases h
  | ok found =>
    rw [hscan] at h
    cases found with
    | none =>
      obtain rfl := Except.ok.inj h
      exact .null
    | some pair =>
      cases hcontents : pair.2.contents pair.1 with
      | error p =>
        simp only [bind, Except.bind, hcontents] at h
        cases h
      | ok contents =>
        simp only [bind, Except.bind, hcontents] at h
        obtain rfl := Except.ok.inj h
        exact keyed_unfold ..

/-- What is read: the octets of a file, or a text in memory. -/
inductive Input where
  | file (octets : List Nat)
  | text (s : String)

/-- What reads documents for those who want them. What it makes of an input, and which it refuses,
is its own affair; but the values that it gives have each key of a mapping once. -/
structure Reader where
  read : Input → Read Value
  keyed {i : Input} {v : Value} : read i = .ok v → v.Keyed

def Source.ofInput : Input → Source
  | .file octets => .ofOctets octets
  | .text s => .ofText s

/-- The reader of the program. It knows no kinds of value besides those of a document: a date is the
text of it, and sets and binary data are refused. -/
def reader : Reader where
  read i := Yaml.read (.ofInput i)
  keyed := keyed_read

end DecisionGate.Yaml
