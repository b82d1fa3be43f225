import DecisionGate.Numeric.Power

/-!
Binary floating point numbers as exact quotients. A double is read from its bits as a sign, a
mantissa and a power of two, and the double nearest to a quotient of naturals is written back,
a half going to the even neighbour. Both directions are plain arithmetic on `Nat` and `Int`.
-/
namespace DecisionGate.Double

/-- What a double stands for. A finite one is `± mantissa * 2 ^ exponent`. -/
inductive Parts where
  | nan
  | infinite (negative : Bool)
  | finite (negative : Bool) (mantissa : Nat) (exponent : Int)
  deriving DecidableEq, Repr

/-- The least exponent of a double, that of the subnormal numbers. -/
def minExponent : Int := -1074

/-- The sign bit, eleven exponent bits and fifty-two fraction bits of a word. -/
def partsOfBits (bits : Nat) : Parts :=
  let negative := bits / twoTo 63 % 2 == 1
  let exponent : Nat := bits / twoTo 52 % twoTo 11
  let fraction := bits % twoTo 52
  if exponent = 2047 then
    if fraction = 0 then .infinite negative else .nan
  else if exponent = 0 then .finite negative fraction minExponent
  else .finite negative (twoTo 52 + fraction) (exponent - 1075)

def parts (x : Float) : Parts := partsOfBits x.toBits.toNat

/-- The pattern of positive infinity; every smaller pattern is a finite magnitude. -/
def infinityBits : Nat := 2047 * twoTo 52

/-- `num / den` rounded to the nearest integer, a half to the even one. -/
def roundDiv (num den : Nat) : Nat :=
  let q := num / den
  let r := num % den
  if 2 * r > den ∨ (2 * r = den ∧ q % 2 = 1) then q + 1 else q

/-- `num / den` in units of `2 ^ e`, as a quotient of naturals. -/
def scaled (num den : Nat) (e : Int) : Nat × Nat :=
  if e < 0 then (num * twoTo (-e).toNat, den) else (num, den * twoTo e.toNat)

/-- The exponent at which a positive quotient has a mantissa of fifty-three bits, or the least
exponent when it is smaller than every normal number. -/
def exponentOf (num den : Nat) : Int :=
  let guess : Int := (Nat.log2 num : Int) - (Nat.log2 den : Int) - 52
  let (n, d) := scaled num den guess
  max minExponent (if n / d < twoTo 52 then guess - 1 else guess)

/-- The pattern of the double nearest to `num / den`, infinity's pattern or above when the
quotient rounds past the largest finite one. -/
def bitsOfRatio (num den : Nat) : Nat :=
  if num = 0 then 0
  else
    let e := exponentOf num den
    let (n, d) := scaled num den e
    (e - minExponent).toNat * twoTo 52 + roundDiv n d

/-- The double nearest to `num / den`, none when it is out of range. -/
def ofRatio? (negative : Bool) (num den : Nat) : Option Float :=
  let bits := bitsOfRatio num den
  if bits < infinityBits then
    some (Float.ofBits (UInt64.ofNat (if negative then twoTo 63 + bits else bits)))
  else none

/-- The double nearest to an integer, none when the integer is too large. -/
def ofInt? (i : Int) : Option Float := ofRatio? (i < 0) i.natAbs 1

def infinity : Float := Float.ofBits (UInt64.ofNat infinityBits)

def negInfinity : Float := Float.ofBits (UInt64.ofNat (twoTo 63 + infinityBits))

def nan : Float := Float.ofBits (UInt64.ofNat (infinityBits + twoTo 51))

def isFinite (x : Float) : Bool :=
  match parts x with
  | .finite .. => true
  | _ => false

def isNaN (x : Float) : Bool := parts x == .nan

/-- An infinity or NaN has no integral value. -/
def isIntegral (x : Float) : Bool :=
  match parts x with
  | .finite _ m e => 0 ≤ e || m % twoTo (-e).toNat == 0
  | _ => false

/-- The order of a double and an integer, taken exactly; NaN has none. -/
def compareInt (x : Float) (i : Int) : Option Ordering :=
  match parts x with
  | .nan => none
  | .infinite negative => some (if negative then .lt else .gt)
  | .finite negative m e =>
    let s : Int := if negative then -1 else 1
    if 0 ≤ e then some (compare (s * m * twoTo e.toNat) i)
    else some (compare (s * m) (i * twoTo (-e).toNat))

example : partsOfBits (1023 * twoTo 52) = .finite false (twoTo 52) (-52) := by decide
example : bitsOfRatio 1 1 = 1023 * twoTo 52 := by decide +kernel
example : ofInt? (twoTo 1024) = none := by decide +kernel

end DecisionGate.Double
