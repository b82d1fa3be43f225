import DecisionGate.Text.Printable
import DecisionGate.Text.Surrogate

/-!
The quoted form of a text in messages. Single quotes stand around it unless it holds a single quote
and no double one; backslashes, the quote in use and everything without a printed form are escaped.
-/
namespace DecisionGate.Text

/-- `n` in lower-case hexadecimal, filled up with zeros to a width. -/
def hex (width n : Nat) : List Char :=
  let ds := Nat.toDigits 16 n
  List.replicate (width - ds.length) '0' ++ ds

/-- The shortest escape of a character that has no printed form. -/
def escapeUnprintable (c : Char) : List Char :=
  let n := (half? c).getD c.toNat
  if n < 0x100 then '\\' :: 'x' :: hex 2 n
  else if n < 0x10000 then '\\' :: 'u' :: hex 4 n
  else '\\' :: 'U' :: hex 8 n

def quotedChar (quote c : Char) : List Char :=
  if c = quote ∨ c = '\\' then ['\\', c]
  else if c = '\n' then ['\\', 'n']
  else if c = '\r' then ['\\', 'r']
  else if c = '\t' then ['\\', 't']
  else if isPrintable c then [c]
  else escapeUnprintable c

def quoteOf (cs : List Char) : Char :=
  if cs.contains '\'' && !cs.contains '"' then '"' else '\''

def quoted (s : String) : String :=
  let cs := s.toList
  let q := quoteOf cs
  String.ofList (q :: cs.flatMap (quotedChar q) ++ [q])

end DecisionGate.Text
