import DecisionGate.Numeric.Reader
import DecisionGate.Text.Lines
import DecisionGate.Text.Utf8

/-!
The target of a request: a path, which is taken as it is written, and a query, whose settings are
percent-decoded.
-/
namespace DecisionGate.Web

def hexDigit? (c : Char) : Option Nat := (Decimal.digitOf? c).filter (· < 16)

/-- The octets of a text. A percent sign without two digits after it stands for itself. -/
def octets : List Char → List Nat
  | [] => []
  | '%' :: a :: b :: rest =>
    match hexDigit? a, hexDigit? b with
    | some high, some low => (high * 16 + low) :: octets rest
    | _, _ => Utf8.encodeChar '%' ++ octets (a :: b :: rest)
  | c :: rest => Utf8.encodeChar c ++ octets rest

def isAscii (c : Char) : Bool := c.toNat < 128

/-- Decodes the runs of common characters, each on its own, and keeps all others. Octets that no
character has become replacement characters. -/
def decodeRuns (run : List Char) : List Char → List Char
  | [] => (Utf8.decodeTolerant (octets run.reverse)).toList
  | c :: rest =>
    if isAscii c then decodeRuns (c :: run) rest
    else (Utf8.decodeTolerant (octets run.reverse)).toList ++ c :: decodeRuns [] rest

def percentDecode (cs : List Char) : String := String.ofList (decodeRuns [] cs)

/-- The parts in front of and behind the first separator; without one there is no second part. -/
def cut (separator : Char) (cs : List Char) : List Char × List Char :=
  (cs.takeWhile (· != separator), (cs.dropWhile (· != separator)).drop 1)

/-- The query is kept as it is written. -/
structure Target where
  path : List Char
  query : List Char
  deriving DecidableEq, Repr

namespace Target

def ofText (s : String) : Target :=
  let (path, query) := cut '?' s.toList
  { path, query }

/-- A query is a sequence of octets, and each of them counts as the character of its number. -/
def wireText (cs : List Char) : List Char := (cs.flatMap Utf8.encodeChar).map Char.ofNat

/-- One setting of a query, its name and its value; a plus sign stands for a space. -/
def setting (cs : List Char) : String × String :=
  let (name, value) := cut '=' (cs.map fun c => if c = '+' then ' ' else c)
  (percentDecode name, percentDecode value)

def settings (t : Target) : List (String × String) :=
  ((Text.split '&' (wireText t.query)).filter (!·.isEmpty)).map setting

/-- Of several values the last one counts. -/
def setting? (t : Target) (name : String) : Option String := t.settings.reverse.lookup name

end Target

end DecisionGate.Web
