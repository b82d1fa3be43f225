import DecisionGate.Text.Surrogate

/-!
Texts in units of two or four octets. In units of two, a pair of halves is one character; a half
without its other one stays.
-/
namespace DecisionGate.Text

/-- Which octet of a unit comes first. -/
inductive Endian where
  | big
  | little
  deriving DecidableEq, Repr

/-- The number that the octets of one unit make. -/
def Endian.number (e : Endian) (octets : List Nat) : Nat :=
  let ordered := match e with
    | .big => octets
    | .little => octets.reverse
  ordered.foldl (fun n b => n * 256 + b) 0

/-- Units of two octets; none when an octet is left over. -/
def shortUnits? (e : Endian) : List Nat → Option (List Nat)
  | [] => some []
  | a :: b :: rest => (shortUnits? e rest).map (e.number [a, b] :: ·)
  | _ => none

/-- Units of four octets; none when octets are left over. -/
def longUnits? (e : Endian) : List Nat → Option (List Nat)
  | [] => some []
  | a :: b :: c :: d :: rest => (longUnits? e rest).map (e.number [a, b, c, d] :: ·)
  | _ => none

def isFrontHalf (n : Nat) : Bool := firstHalf ≤ n && n < 0xDC00

def isBackHalf (n : Nat) : Bool := 0xDC00 ≤ n && n ≤ lastHalf

/-- The character that two halves make. -/
def joinHalves (front back : Nat) : Char :=
  Char.ofNat (0x10000 + (front - firstHalf) * 0x400 + (back - 0xDC00))

/-- The characters of units of two octets, with a half that waits for its other one. -/
def charsFrom (front : Option Nat) : List Nat → List Char
  | [] => (front.map charOf).toList
  | n :: rest =>
    match front with
    | some f =>
      if isBackHalf n then joinHalves f n :: charsFrom none rest
      else if isFrontHalf n then charOf f :: charsFrom (some n) rest
      else charOf f :: charOf n :: charsFrom none rest
    | none => if isFrontHalf n then charsFrom (some n) rest else charOf n :: charsFrom none rest

def decodeShort? (e : Endian) (octets : List Nat) : Option (List Char) :=
  (shortUnits? e octets).map (charsFrom none)

/-- Units of four octets are numbers of characters. -/
def decodeLong? (e : Endian) (octets : List Nat) : Option (List Char) :=
  (longUnits? e octets).bind fun ns =>
    if ns.all fun n => n ≤ 0x10FFFF then some (ns.map charOf) else none

example : decodeShort? .little [0x3D, 0xD8, 0x00, 0xDE] = some [Char.ofNat 0x1F600] := by
  decide +kernel
example : decodeShort? .big [0x00] = none := rfl

end DecisionGate.Text
