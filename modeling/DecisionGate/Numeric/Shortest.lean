import DecisionGate.Numeric.Double

/-!
Decimal digits of an exact positive quotient: the fewest that read back as the same double, or a
given count of significant digits. The search compares naturals only, so no digit is ever lost to
rounding on the way.
-/
namespace DecisionGate.Decimal

/-- The digits `d₁ d₂ …` and the power `p` of the number `0.d₁d₂… * 10 ^ p`. -/
structure Digits where
  digits : List Char
  power : Int
  deriving DecidableEq, Repr

/-- The least `p` with `num / den < 10 ^ p`, for a positive quotient. -/
def powerOf (num den : Nat) : Int :=
  let guess : Int := ((Nat.log2 num : Int) - (Nat.log2 den : Int) - 1) * 30103 / 100000
  let below (p : Int) : Bool :=
    if 0 ≤ p then num < den * tenTo p.toNat else num * tenTo (-p).toNat < den
  let candidates := (List.range 4).map fun (i : Nat) => guess - 1 + (i : Int)
  (candidates.find? below).getD (guess + 3)

/-- `num / den` in units of `10 ^ e`, as a quotient of naturals. -/
def scaled (num den : Nat) (e : Int) : Nat × Nat :=
  if e < 0 then (num * tenTo (-e).toNat, den) else (num, den * tenTo e.toNat)

/-- The digits of `n`, without the zeros at the end. -/
def trimmedDigits (n : Nat) : List Char :=
  ((Nat.toDigits 10 n).reverse.dropWhile (· == '0')).reverse

/-- `count` significant digits of a positive quotient, a half rounded to the even digit. -/
def significant (num den : Nat) (count : Nat) : Digits :=
  let p := powerOf num den
  let (n, d) := scaled num den (p - count)
  let q := Double.roundDiv n d
  if q = tenTo count then ⟨['1'], p + 1⟩ else ⟨trimmedDigits q, p⟩

/-- The interval of quotients that round to `mantissa * 2 ^ exponent`, in quarter units of the last
binary place: the ends belong to it when the mantissa is even. -/
structure Interval where
  lower : Nat
  value : Nat
  upper : Nat
  closed : Bool
  deriving DecidableEq, Repr

def Interval.ofParts (mantissa : Nat) (exponent : Int) : Interval :=
  let narrow := mantissa = twoTo 52 ∧ Double.minExponent < exponent
  { lower := 4 * mantissa - (if narrow then 1 else 2)
    value := 4 * mantissa
    upper := 4 * mantissa + 2
    closed := mantissa % 2 == 0 }

/-- Whether `n * 10 ^ place` lies in the interval, both sides brought to naturals. -/
def Interval.holds (iv : Interval) (exponent place : Int) (n : Nat) : Bool :=
  let (a, b) := scaled n 1 (-place)
  let (u, v) := Double.scaled 1 1 (2 - exponent)
  let x := a * v
  let y := b * u
  if iv.closed then iv.lower * y ≤ x && x ≤ iv.upper * y
  else iv.lower * y < x && x < iv.upper * y

/-- The point of a decimal grid that reads back: of the two neighbours the nearer, and of two
equally near ones the even one. -/
def Interval.onGrid? (iv : Interval) (exponent : Int) (num den : Nat) (place : Int) : Option Nat :=
  let (n, d) := scaled num den place
  let near := Double.roundDiv n d
  let far := if near = n / d then near + 1 else n / d
  if iv.holds exponent place near then some near
  else if iv.holds exponent place far then some far
  else none

/-- The fewest digits that read back as `mantissa * 2 ^ exponent`. Seventeen always do. -/
def shortest (mantissa : Nat) (exponent : Int) : Digits :=
  let (num, den) := Double.scaled mantissa 1 (-exponent)
  let p := powerOf num den
  let iv := Interval.ofParts mantissa exponent
  let found := (List.range 17).findSome? fun (i : Nat) =>
    (iv.onGrid? exponent num den (p - ((i + 1 : Nat) : Int))).map fun q =>
      if q = tenTo (i + 1) then (⟨['1'], p + 1⟩ : Digits) else ⟨trimmedDigits q, p⟩
  found.getD (significant num den 17)

end DecisionGate.Decimal
