import DecisionGate.Files.Tree

/-!
Changes to a tree of files as data, so that a run can be given a list of them.
-/
namespace DecisionGate.Files

inductive Edit where
  | write (path : Path) (octets : List Nat) (time : Option Int)
  | delete (path : Path)
  | makeDirectory (path : Path)
  | removeTree (path : Path)
  deriving Repr

def Edit.apply (e : Edit) (t : Tree) : Except Problem Tree :=
  match e with
  | .write path octets time => t.write path octets time
  | .delete path => t.delete path
  | .makeDirectory path => t.makeDirectory path
  | .removeTree path => t.removeTree path

end DecisionGate.Files
