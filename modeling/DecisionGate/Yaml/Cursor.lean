import DecisionGate.Yaml.Source

/-!
A place in a text that is read: what is left of it, with the line and the column that indentation
goes by. The end of the text counts as a blank wherever a blank has to follow. A text that is
stopped has no such end, and whatever is refused there is refused for what stopped it.
-/
namespace DecisionGate.Yaml

def isBreak (c : Char) : Bool :=
  c = '\n' || c = '\r' || c = '\u0085' || c = '\u2028' || c = '\u2029'

/-- The mark that may open a text has no width. -/
def byteOrderMark : Char := '\uFEFF'

def isSpace (c : Char) : Bool := c = ' '

def isSpaceOrTab (c : Char) : Bool := c = ' ' || c = '\t'

def isHex (c : Char) : Bool :=
  ('0' ≤ c && c ≤ '9') || ('a' ≤ c && c ≤ 'f') || ('A' ≤ c && c ≤ 'F')

/-- Letters of names: of anchors, of directives and of tag handles. -/
def isNameChar (c : Char) : Bool := c.isAlphanum || c = '-' || c = '_'

structure Cursor where
  rest : List Char
  index : Nat := 0
  line : Nat := 0
  column : Nat := 0
  stop : Option Problem := none
  deriving DecidableEq, Repr

namespace Cursor

def peek (c : Cursor) : Option Char := c.rest.head?

def peekAt (c : Cursor) (n : Nat) : Option Char := c.rest[n]?

def isAtEnd (c : Cursor) : Bool := c.rest.isEmpty

/-- What stops the reading here. -/
def stopped? (c : Cursor) : Option Problem := if c.isAtEnd then c.stop else none

/-- Why something is refused here. -/
def refusal (c : Cursor) : Problem := c.stopped?.getD .malformed

/-- Goes on by one character. A carriage return opens a line unless a line feed follows it. -/
def next (c : Cursor) : Cursor :=
  match c.rest with
  | [] => c
  | x :: rest =>
    if isBreak x && !(x = '\r' && rest.head? = some '\n') then
      { c with rest, index := c.index + 1, line := c.line + 1, column := 0 }
    else
      { c with rest, index := c.index + 1
               column := if x = byteOrderMark then c.column else c.column + 1 }

def advance (c : Cursor) : Nat → Cursor
  | 0 => c
  | n + 1 => c.next.advance n

/-- The longest run of characters of a class, and the place after it. -/
def span (c : Cursor) (p : Char → Bool) : List Char × Cursor :=
  let run := c.rest.takeWhile p
  (run, c.advance run.length)

def skip (c : Cursor) (p : Char → Bool) : Cursor := (c.span p).2

def isAt (c : Cursor) (p : Char → Bool) : Bool := c.peek.any p

/-- Whether a character of a class or the end comes next, or so many characters further on. -/
def isAtOrEnd (c : Cursor) (p : Char → Bool) (n : Nat := 0) : Bool := (c.peekAt n).all p

/-- A blank, a tab, a line break or the end. -/
def isAtGap (c : Cursor) (n : Nat := 0) : Bool :=
  c.isAtOrEnd (fun x => isSpaceOrTab x || isBreak x) n

/-- A blank, a line break or the end. -/
def isAtSpaceOrBreak (c : Cursor) : Bool := c.isAtOrEnd fun x => isSpace x || isBreak x

/-- A line break or the end. -/
def isAtLineEnd (c : Cursor) : Bool := c.isAtOrEnd isBreak

/-- One line break as it counts in a scalar, and the place after it. -/
def lineBreak? (c : Cursor) : Option (Char × Cursor) :=
  match c.rest with
  | '\r' :: '\n' :: _ => some ('\n', c.advance 2)
  | x :: _ =>
    if x = '\u2028' || x = '\u2029' then some (x, c.next)
    else if isBreak x then some ('\n', c.next)
    else none
  | [] => none

/-- The place after a line break if there is one. -/
def skipLineBreak (c : Cursor) : Cursor := (c.lineBreak?.map Prod.snd).getD c

/-- Whether three equal signs of a document's start or end come next. -/
def isAtMarker (c : Cursor) (sign : Char) : Bool :=
  c.rest.take 3 == [sign, sign, sign] && c.isAtGap 3

def isAtSeparator (c : Cursor) : Bool := c.isAtMarker '-' || c.isAtMarker '.'

/-- Goes on to the end of the line when a comment starts here. -/
def skipComment (c : Cursor) : Cursor :=
  if c.peek = some '#' then c.skip (fun x => !isBreak x) else c

/-- The rest of a line that may only hold a comment. -/
def ignoredLine (c : Cursor) : Read Cursor :=
  let c := (c.skip isSpace).skipComment
  if c.isAtLineEnd then .ok c.skipLineBreak else .error c.refusal

/-- One given character. -/
def expect (c : Cursor) (x : Char) : Read Cursor :=
  if c.peek = some x then .ok c.next else .error c.refusal

/-- A run of characters of a class that is not empty. -/
def span1 (c : Cursor) (p : Char → Bool) : Read (List Char × Cursor) :=
  let (run, after) := c.span p
  if run.isEmpty then .error c.refusal else .ok (run, after)

end Cursor

end DecisionGate.Yaml
