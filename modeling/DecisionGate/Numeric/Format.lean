import DecisionGate.Numeric.Shortest

/-!
The written forms of numbers. A double is written in full (the fewest digits that read back,
positional from `0.0001` up to `10 ^ 16`), with a fixed count of places, or in a general form of
six significant digits. A half always goes to the even neighbour of the exact value.
-/
namespace DecisionGate.Format

/-- Which exponents are written positionally and whether an integral number keeps a point. -/
structure Style where
  leastPositional : Int
  firstScientific : Int
  keepsPoint : Bool
  deriving DecidableEq, Repr

/-- `1e-05`, `0.0001`, `1234567.0`, `1e+16`. -/
def full : Style := ⟨-4, 16, true⟩

/-- `1e-05`, `0.0001`, `123456`, `1e+06`. -/
def general : Style := ⟨-4, 6, false⟩

def zeros (n : Nat) : List Char := List.replicate n '0'

/-- An exponent has a sign and at least two digits. -/
def exponentText (e : Int) : List Char :=
  let ds := Nat.toDigits 10 e.natAbs
  'e' :: (if e < 0 then '-' else '+') :: (if ds.length < 2 then '0' :: ds else ds)

def positional (keepsPoint : Bool) (d : Decimal.Digits) : List Char :=
  if d.power ≤ 0 then '0' :: '.' :: zeros (-d.power).toNat ++ d.digits
  else
    let whole := d.power.toNat
    if d.digits.length ≤ whole then
      d.digits ++ zeros (whole - d.digits.length) ++ (if keepsPoint then ['.', '0'] else [])
    else d.digits.take whole ++ '.' :: d.digits.drop whole

def scientific (d : Decimal.Digits) : List Char :=
  let tail := d.digits.drop 1
  d.digits.take 1 ++ (if tail.isEmpty then [] else '.' :: tail) ++ exponentText (d.power - 1)

def Style.write (style : Style) (d : Decimal.Digits) : List Char :=
  if style.leastPositional < d.power ∧ d.power ≤ style.firstScientific then
    positional style.keepsPoint d
  else scientific d

/-- Infinities and NaN have the same text in every form. -/
def signed (negative : Bool) (magnitude : List Char) : String :=
  String.ofList (if negative then '-' :: magnitude else magnitude)

def double (x : Float) : String :=
  match Double.parts x with
  | .nan => "nan"
  | .infinite negative => if negative then "-inf" else "inf"
  | .finite negative m e =>
    signed negative (if m = 0 then ['0', '.', '0'] else full.write (Decimal.shortest m e))

/-- Six significant digits, without zeros at the end. -/
def generalDouble (x : Float) : String :=
  match Double.parts x with
  | .nan => "nan"
  | .infinite negative => if negative then "-inf" else "inf"
  | .finite negative m e =>
    let (num, den) := Double.scaled m 1 (-e)
    signed negative (if m = 0 then ['0'] else general.write (Decimal.significant num den 6))

/-- A fixed count of places, at least one. -/
def fixedDouble (places : Nat) (x : Float) : String :=
  match Double.parts x with
  | .nan => "nan"
  | .infinite negative => if negative then "-inf" else "inf"
  | .finite negative m e =>
    let (num, den) := Double.scaled m 1 (-e)
    let ds := Nat.toDigits 10 (Double.roundDiv (num * tenTo places) den)
    let padded := zeros (places + 1 - ds.length) ++ ds
    let whole := padded.length - places
    signed negative (padded.take whole ++ '.' :: padded.drop whole)

/-- Integers with more decimal digits are not shown. -/
def longestInteger : Nat := 4300

/-- Whether an integer is short enough to be shown. -/
def hasText (i : Int) : Bool := i.natAbs < tenTo longestInteger

def integer (i : Int) : String := signed (i < 0) (Nat.toDigits 10 i.natAbs)

example : integer (-120) = "-120" := by decide +kernel

end DecisionGate.Format
