import DecisionGate.Text.Lines

/-!
Paths as they are written: components with slashes between them. Empty components and single dots
say nothing and are left out. One slash in front starts at the root, and so do more; exactly two of
them are kept in the text, since a system may give them a meaning of their own.
-/
namespace DecisionGate.Files

structure Path where
  /-- How many slashes the text begins with: none, one or two. -/
  slashes : Nat := 0
  parts : List String := []
  deriving DecidableEq, Repr

namespace Path

def ofText (s : String) : Path :=
  let parts := (Text.split '/' s.toList).filter fun p => !p.isEmpty && p != ['.']
  let front := (s.toList.takeWhile (· = '/')).length
  { slashes := if front ≤ 2 then front else 1, parts := parts.map String.ofList }

def isAbsolute (p : Path) : Bool := p.slashes != 0

def text (p : Path) : String :=
  let body := "/".intercalate p.parts
  if p.isAbsolute then String.ofList (List.replicate p.slashes '/') ++ body
  else if p.parts.isEmpty then "." else body

/-- An absolute path stands for itself wherever it is put. -/
def join (p q : Path) : Path := if q.isAbsolute then q else { p with parts := p.parts ++ q.parts }

def parent (p : Path) : Path := { p with parts := p.parts.dropLast }

/-- What follows the last dot of a name, dot included; a dot at either end opens none. -/
def extension (p : Path) : String :=
  let name := (p.parts.getLast?.getD "").toList
  let ending := (name.reverse.takeWhile (· != '.')).reverse
  let stem := name.length - ending.length - 1
  if name.contains '.' && !ending.isEmpty && 0 < stem then String.ofList ('.' :: ending) else ""

end Path

end DecisionGate.Files
