import DecisionGate.Numeric.Format
import DecisionGate.Value.Basic

/-!
Arithmetic that may refuse its operands. The scoring rules are written once over the class
`Arithmetic`; over documents an operation fails when an operand is no number or an integer is too
large for a double, over the rationals it never fails.
-/
namespace DecisionGate

inductive Comparison where
  | lt
  | le
  | gt
  | ge
  deriving DecidableEq, Repr

def Comparison.symbol : Comparison → String
  | .lt => "<"
  | .le => "<="
  | .gt => ">"
  | .ge => ">="

/-- What an order says about a comparison. -/
def Comparison.holds : Comparison → Ordering → Bool
  | .lt, o => o == .lt
  | .le, o => o != .gt
  | .gt, o => o == .gt
  | .ge, o => o != .lt

/-- Why an operation on documents has no result. -/
inductive Fault where
  | integerTooLarge
  | integerTooLong
  | operands (operator left right : String)
  | repetition (count : String)
  | unordered (comparison : Comparison) (left right : String)
  | noMember (kind member : String)
  deriving DecidableEq, Repr

def Fault.message : Fault → String
  | .integerTooLarge => "int too large to convert to float"
  | .integerTooLong =>
    s!"Exceeds the limit ({Format.longestInteger} digits) for integer string conversion; " ++
      "use sys.set_int_max_str_digits() to increase the limit"
  | .operands operator left right =>
    s!"unsupported operand type(s) for {operator}: '{left}' and '{right}'"
  | .repetition count => s!"can't multiply sequence by non-int of type '{count}'"
  | .unordered c left right =>
    s!"'{c.symbol}' not supported between instances of '{left}' and '{right}'"
  | .noMember kind member => s!"'{kind}' object has no attribute '{member}'"

/-- `zero` is the integer that a sum starts from. -/
class Arithmetic (α : Type) extends OfScientific α where
  zero : α
  add : α → α → Except Fault α
  mul : α → α → Except Fault α
  div : α → α → Except Fault α
  compare : Comparison → α → α → Except Fault Bool

/-- A number: truth values count as one and zero. -/
inductive Number where
  | int (i : Int)
  | float (x : Float)

namespace Number

def toDouble : Number → Except Fault Float
  | .float x => .ok x
  | .int i =>
    match Double.ofInt? i with
    | some x => .ok x
    | none => .error .integerTooLarge

def ofDoubles (f : Float → Float → Float) (a b : Number) : Except Fault Value := do
  let x ← a.toDouble
  let y ← b.toDouble
  .ok (.float (f x y))

def add : Number → Number → Except Fault Value
  | .int i, .int j => .ok (.int (i + j))
  | a, b => ofDoubles (· + ·) a b

def mul : Number → Number → Except Fault Value
  | .int i, .int j => .ok (.int (i * j))
  | a, b => ofDoubles (· * ·) a b

/-- The double nearest to the exact quotient of two integers, none when it is out of range. -/
def quotient? (i j : Int) : Option Float :=
  Double.ofRatio? ((i < 0) != (j < 0)) i.natAbs j.natAbs

/-- A quotient of integers is rounded once. -/
def div : Number → Number → Except Fault Value
  | .int i, .int j =>
    if j = 0 then ofDoubles (· / ·) (.int i) (.int j)
    else
      match quotient? i j with
      | some x => .ok (.float x)
      | none => .error .integerTooLarge
  | a, b => ofDoubles (· / ·) a b

/-- The exact order; NaN has none. -/
def order : Number → Number → Option Ordering
  | .int i, .int j => some (compare i j)
  | .float x, .int j => Double.compareInt x j
  | .int i, .float y => (Double.compareInt y i).map Ordering.swap
  | .float x, .float y =>
    if x < y then some .lt else if x == y then some .eq else if y < x then some .gt else none

def compare (c : Comparison) (a b : Number) : Bool :=
  match order a b with
  | some o => c.holds o
  | none => false

end Number

namespace Value

def number? : Value → Option Number
  | .bool b => some (.int (if b then 1 else 0))
  | .int i => some (.int i)
  | .float x => some (.float x)
  | _ => none

def isSequence : Value → Bool
  | .str _ => true
  | .list _ => true
  | _ => false

def add (a b : Value) : Except Fault Value :=
  match a.number?, b.number? with
  | some m, some n => m.add n
  | _, _ => .error (.operands "+" a.kindName b.kindName)

/-- Only the second factor of a score can be something else than a number. -/
def mul (a b : Value) : Except Fault Value :=
  match a.number?, b.number? with
  | some m, some n => m.mul n
  | _, _ =>
    if b.isSequence then .error (.repetition a.kindName)
    else .error (.operands "*" a.kindName b.kindName)

def div (a b : Value) : Except Fault Value :=
  match a.number?, b.number? with
  | some m, some n => m.div n
  | _, _ => .error (.operands "/" a.kindName b.kindName)

def compare (c : Comparison) (a b : Value) : Except Fault Bool :=
  match a.number?, b.number? with
  | some m, some n => .ok (m.compare c n)
  | _, _ => .error (.unordered c a.kindName b.kindName)

end Value

instance : Arithmetic Value where
  zero := .int 0
  ofScientific m s e := .float (OfScientific.ofScientific m s e)
  add := Value.add
  mul := Value.mul
  div := Value.div
  compare := Value.compare

instance : Arithmetic Rat where
  zero := 0
  ofScientific m s e := OfScientific.ofScientific m s e
  add a b := .ok (a + b)
  mul a b := .ok (a * b)
  div a b := .ok (a / b)
  compare c a b := .ok (c.holds (if a < b then .lt else if a = b then .eq else .gt))

end DecisionGate
