import DecisionGate.Numeric.Reader
import DecisionGate.Text.Case
import DecisionGate.Text.Lines
import DecisionGate.Text.Quoted
import DecisionGate.Yaml.Problem

/-!
The values of scalars that are numbers and truth values. Underscores count for nothing, and places
of base sixty have colons between them.
-/
namespace DecisionGate.Yaml

def withoutUnderscores (s : String) : List Char := s.toList.filter (· != '_')

/-- No longer decimal numeral is read. -/
def longestNumeral : Nat := 4300

/-- A message shows this much of a quoted numeral. -/
def shownLength : Nat := 200

def invalidInteger (base : Nat) (s : String) : TagProblem :=
  let shown := String.ofList ((Text.quoted s).toList.take shownLength)
  .number s!"invalid literal for int() with base {base}: {shown}"

def tooLong (digits : Nat) : TagProblem :=
  .number
    (s!"Exceeds the limit ({longestNumeral} digits) for integer string conversion: " ++
      s!"value has {digits} digits; use sys.set_int_max_str_digits() to increase the limit")

/-- How many digits a numeral begins with, after blanks and its sign. -/
def leadingDigits (cs : List Char) : Nat :=
  let cs := Text.trimBy Decimal.isPadding (cs.map Decimal.plainChar)
  ((Decimal.takeSign cs).2.takeWhile Decimal.isAsciiDigit).length

/-- An integer of a base. The digits are counted before what follows them is looked at. -/
def integerOfBase (base : Nat) (cs : List Char) : Except TagProblem Int :=
  let s := String.ofList cs
  let digits := leadingDigits cs
  if base = 10 ∧ longestNumeral < digits then .error (tooLong digits)
  else
    match Decimal.readInteger? base s with
    | none => .error (invalidInteger base s)
    | some n => .ok n

/-- The sign of a scalar and the rest of it; there has to be something. -/
def signed (cs : List Char) : Except TagProblem (Bool × List Char) :=
  match cs with
  | [] => .error .empty
  | '-' :: rest => .ok (true, rest)
  | '+' :: rest => .ok (false, rest)
  | cs => .ok (false, cs)

/-- The value of places of base sixty, the greatest first. -/
def sumPlaces (places : List Int) : Int := places.foldl (fun n x => n * 60 + x) 0

def magnitude (cs : List Char) : Except TagProblem Int :=
  match cs with
  | [] => .error .empty
  | ['0'] => .ok 0
  | '0' :: 'b' :: rest => integerOfBase 2 rest
  | '0' :: 'x' :: rest => integerOfBase 16 rest
  | '0' :: _ => integerOfBase 8 cs
  | cs =>
    if cs.contains ':' then do
      let places ← (Text.split ':' cs).mapM (integerOfBase 10)
      .ok (sumPlaces places)
    else integerOfBase 10 cs

def readInteger (s : String) : Except TagProblem Int := do
  let (negative, cs) ← signed (withoutUnderscores s)
  let n ← magnitude cs
  .ok (if negative then -n else n)

def doubleOf (cs : List Char) : Except TagProblem Float :=
  let s := String.ofList cs
  match Decimal.readDouble? s with
  | some x => .ok x
  | none => .error (.number s!"could not convert string to float: {Text.quoted s}")

/-- Adds up places of base sixty, the least first; `unit` is what the next place counts. A place
whose unit is greater than every double has no value. -/
def addPlaces (sum : Float) (unit : Nat) : List Float → Except TagProblem Float
  | [] => .ok sum
  | x :: rest =>
    match Double.ofInt? unit with
    | none => .error .tooLarge
    | some u => addPlaces (sum + x * u) (unit * 60) rest

def doubleMagnitude (cs : List Char) : Except TagProblem Float :=
  match String.ofList cs with
  | ".inf" => .ok Double.infinity
  | ".nan" => .ok Double.nan
  | _ =>
    if cs.contains ':' then do
      let places ← (Text.split ':' cs).mapM doubleOf
      addPlaces 0.0 1 places.reverse
    else doubleOf cs

def readDouble (s : String) : Except TagProblem Float := do
  let (negative, cs) ← signed (Text.lower (withoutUnderscores s))
  let x ← doubleMagnitude cs
  .ok (if negative then -x else x)

def readFlag (s : String) : Except TagProblem Bool :=
  let small := String.ofList (Text.lower s.toList)
  if ["yes", "true", "on"].contains small then .ok true
  else if ["no", "false", "off"].contains small then .ok false
  else .error (.flag small)

end DecisionGate.Yaml
