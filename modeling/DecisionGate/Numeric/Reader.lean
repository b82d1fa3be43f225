import DecisionGate.Numeric.Double
import DecisionGate.Text.Blank
import DecisionGate.Text.Digit

/-!
Reading decimal numerals. A numeral is `[sign] digits [. digits] [e [sign] digits]` with at least
one digit before the exponent; its value is the nearest double, an infinity when it is out of range.
The tolerant form also takes blanks around it, digits of any script, single underscores between
digits and the names of the infinities and of NaN.
-/
namespace DecisionGate.Decimal

/-- A numeral taken apart: its value is `± whole.fraction * 10 ^ exponent`. -/
structure Numeral where
  negative : Bool
  whole : List Char
  fraction : List Char
  exponent : Int
  deriving DecidableEq, Repr

def isAsciiDigit (c : Char) : Bool := '0' ≤ c && c ≤ '9'

def natOfDigits (ds : List Char) : Nat :=
  ds.foldl (fun n c => n * 10 + (c.toNat - '0'.toNat)) 0

/-- An optional sign and what follows it. -/
def takeSign : List Char → Bool × List Char
  | '-' :: rest => (true, rest)
  | '+' :: rest => (false, rest)
  | rest => (false, rest)

/-- The exponent part of a numeral, zero when there is none. -/
def readExponent? : List Char → Option Int
  | [] => some 0
  | c :: rest =>
    if c = 'e' ∨ c = 'E' then
      let (negative, ds) := takeSign rest
      if ds.isEmpty || !ds.all isAsciiDigit then none
      else some (if negative then -(natOfDigits ds : Int) else natOfDigits ds)
    else none

def Numeral.read? (cs : List Char) : Option Numeral :=
  let (negative, cs) := takeSign cs
  let whole := cs.takeWhile isAsciiDigit
  let (fraction, rest) :=
    match cs.dropWhile isAsciiDigit with
    | '.' :: rest => (rest.takeWhile isAsciiDigit, rest.dropWhile isAsciiDigit)
    | rest => ([], rest)
  if whole.isEmpty && fraction.isEmpty then none
  else (readExponent? rest).map fun e => ⟨negative, whole, fraction, e⟩

/-- The double nearest to `± m * 10 ^ e`. Far out of range the size alone decides. -/
def toDouble (negative : Bool) (m : Nat) (e : Int) : Float :=
  let size : Int := (Nat.log2 m : Int) * 3 / 10 + e
  let infinite := if negative then Double.negInfinity else Double.infinity
  if m = 0 ∨ (size : Int) < -400 - (Nat.log2 m : Int) / 100 then
    (Double.ofRatio? negative 0 1).getD infinite
  else if 400 < size then infinite
  else
    let ratio := if 0 ≤ e then (m * tenTo e.toNat, 1) else (m, tenTo (-e).toNat)
    (Double.ofRatio? negative ratio.1 ratio.2).getD infinite

def Numeral.value (n : Numeral) : Float :=
  toDouble n.negative (natOfDigits (n.whole ++ n.fraction)) (n.exponent - n.fraction.length)

/-- Underscores may stand only between two digits; without them the digits close up. -/
def closeUnderscores? (previous : Char) : List Char → Option (List Char)
  | [] => if previous = '_' then none else some []
  | '_' :: rest =>
    if isAsciiDigit previous then closeUnderscores? '_' rest else none
  | c :: rest =>
    if previous = '_' && !isAsciiDigit c then none
    else (closeUnderscores? c rest).map (c :: ·)

/-- The digits of every script in their common form, and every blank beyond ASCII as a space. -/
def plainChar (c : Char) : Char :=
  if c.toNat < 128 then c
  else if Text.isBlank c then ' '
  else
    match Text.digitValue? c with
    | some d => Char.ofNat ('0'.toNat + d)
    | none => '?'

def isPadding (c : Char) : Bool := c = ' ' || (0x09 ≤ c.toNat && c.toNat ≤ 0x0D)

def namedValue? (negative : Bool) (name : List Char) : Option Float :=
  match String.ofList (name.map Char.toLower) with
  | "inf" | "infinity" => some (if negative then Double.negInfinity else Double.infinity)
  | "nan" => some Double.nan
  | _ => none

/-- The tolerant reading of a text as a number. -/
def readDouble? (s : String) : Option Float := do
  let cs ← closeUnderscores? ' ' (Text.trimBy isPadding (s.toList.map plainChar))
  let (negative, name) := takeSign cs
  match namedValue? negative name with
  | some x => some x
  | none => (Numeral.read? cs).map Numeral.value

/-- The value of a digit of any base up to sixteen. -/
def digitOf? (c : Char) : Option Nat :=
  if isAsciiDigit c then some (c.toNat - '0'.toNat)
  else if 'a' ≤ c.toLower && c.toLower ≤ 'f' then some (c.toLower.toNat - 'a'.toNat + 10)
  else none

/-- The sign in front of the digits of a base, when they may carry one. -/
def baseLetter? : Nat → Option Char
  | 2 => some 'b'
  | 8 => some 'o'
  | 16 => some 'x'
  | _ => none

def dropBase (base : Nat) : List Char → List Char
  | '0' :: c :: rest => if some c.toLower = baseLetter? base then rest else '0' :: c :: rest
  | cs => cs

def naturalOf? (base : Nat) (cs : List Char) : Option Nat :=
  if cs.isEmpty then none
  else
    cs.foldl (fun acc c =>
      match acc, digitOf? c with
      | some n, some d => if d < base then some (n * base + d) else none
      | _, _ => none) (some 0)

/-- The tolerant reading of an integer: blanks around it, a sign, digits of any script, and the
sign of its base. -/
def readInteger? (base : Nat) (s : String) : Option Int :=
  let (negative, cs) := takeSign (Text.trimBy isPadding (s.toList.map plainChar))
  (naturalOf? base (dropBase base cs)).map fun n => if negative then -(n : Int) else n

end DecisionGate.Decimal
