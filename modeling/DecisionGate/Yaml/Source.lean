import DecisionGate.Text.Stream
import DecisionGate.Yaml.Problem

/-!
What a document is read from: characters, and what stops the reading when it comes to the end of
them. A text in memory is looked at as a whole before it is read. A file is looked at block by
block, the first two at once, so what is wrong with it further on shows only when the reading gets
there.
-/
namespace DecisionGate.Yaml

/-- Characters that a text may hold; halves of pairs are none. -/
def isAllowed (c : Char) : Bool :=
  let n := (Text.half? c).getD c.toNat
  n = 0x09 || n = 0x0A || n = 0x0D || n = 0x85 || (0x20 ≤ n && n ≤ 0x7E) ||
    (0xA0 ≤ n && n ≤ 0xD7FF) || (0xE000 ≤ n && n ≤ 0xFFFD) || 0x10000 ≤ n

structure Source where
  chars : List Char
  /-- What comes in the place of the end. -/
  stop : Option Problem := none
  deriving DecidableEq, Repr

namespace Source

def ofText (s : String) : Source :=
  if s.toList.all isAllowed then { chars := s.toList }
  else { chars := [], stop := some .malformed }

/-- Of so many characters, those in the blocks that come before the one that ends there; without the
first two blocks there are none. -/
def wholeBlocks (count : Nat) : Nat :=
  let blocks := count / Text.Stream.blockSize
  if blocks < 2 then 0 else blocks * Text.Stream.blockSize

/-- The first block that cannot be had stops the reading. A block that cannot be decoded is never
looked at. -/
def ofReading (r : Text.Stream.Reading) : Source :=
  let allowed := (r.chars.takeWhile isAllowed).length
  let isClean := allowed = r.chars.length
  match r.fault with
  | none =>
    if isClean then { chars := r.chars }
    else { chars := r.chars.take (wholeBlocks allowed), stop := some .malformed }
  | some p =>
    let decoded := wholeBlocks r.chars.length
    if wholeBlocks allowed < decoded then
      { chars := r.chars.take (wholeBlocks allowed), stop := some .malformed }
    else { chars := r.chars.take decoded, stop := some (.undecodable p) }

def ofOctets (octets : List Nat) : Source := ofReading (Text.Stream.read octets)

end Source

end DecisionGate.Yaml
