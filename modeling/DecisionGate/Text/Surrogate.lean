/-!
Halves of surrogate pairs. A text can name half of a pair by its number, and no character is one, so
the last characters for private use stand for the halves.
-/
namespace DecisionGate.Text

def firstHalf : Nat := 0xD800

def lastHalf : Nat := 0xDFFF

def isHalf (n : Nat) : Bool := firstHalf ≤ n && n ≤ lastHalf

/-- The first character that stands for a half. -/
def firstStandIn : Nat := 0x10F800

/-- The character with a number, or the one that stands for it. -/
def charOf (n : Nat) : Char :=
  if isHalf n then Char.ofNat (firstStandIn + (n - firstHalf)) else Char.ofNat n

/-- The half that a character stands for. -/
def half? (c : Char) : Option Nat :=
  if firstStandIn ≤ c.toNat then some (firstHalf + (c.toNat - firstStandIn)) else none

example : half? (charOf 0xD83D) = some 0xD83D := by decide
example : half? (charOf 0x41) = none := by decide

end DecisionGate.Text
