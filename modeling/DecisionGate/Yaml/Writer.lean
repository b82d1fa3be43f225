import DecisionGate.Numeric.Format
import DecisionGate.Value.Text

/-!
A document written on one line. Texts are quoted and doubles have a point, so that reading gives the
same value again.
-/
namespace DecisionGate.Yaml

def writeChar (c : Char) : List Char :=
  if c = '"' ∨ c = '\\' then ['\\', c]
  else if ' ' ≤ c ∧ c ≤ '~' then [c]
  else '\\' :: 'U' :: Text.hex 8 c.toNat

def writeText (s : String) : String := String.ofList ('"' :: s.toList.flatMap writeChar ++ ['"'])

/-- A point in front of an exponent. -/
def withPoint (cs : List Char) : List Char :=
  if cs.contains '.' then cs
  else (cs.takeWhile (· != 'e')) ++ ['.', '0'] ++ cs.dropWhile (· != 'e')

def writeDouble (x : Float) : String :=
  match Double.parts x with
  | .nan => ".nan"
  | .infinite negative => if negative then "-.inf" else ".inf"
  | .finite _ _ _ => String.ofList (withPoint (Format.double x).toList)

def writeFlag (b : Bool) : String := if b then "true" else "false"

def writeKey : Key → String
  | .null => "null"
  | .bool b => writeFlag b
  | .int i => Format.integer i
  | .float x => writeDouble x
  | .str s => writeText s

mutual

def write : Value → String
  | .null => "null"
  | .bool b => writeFlag b
  | .int i => Format.integer i
  | .float x => writeDouble x
  | .str s => writeText s
  | .list xs => "[" ++ ", ".intercalate (writeItems xs) ++ "]"
  | .map es => "\x7b" ++ ", ".intercalate (writeEntries es) ++ "\x7d"
  | .endless _ => "null"

def writeItems : List Value → List String
  | [] => []
  | v :: rest => write v :: writeItems rest

/-- Every key is marked as one, since a long key would not be found by its colon. -/
def writeEntries : List (Key × Value) → List String
  | [] => []
  | (k, v) :: rest => ("? " ++ writeKey k ++ " : " ++ write v) :: writeEntries rest

end

end DecisionGate.Yaml
