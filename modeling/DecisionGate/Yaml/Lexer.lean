import DecisionGate.Yaml.Scalar
import DecisionGate.Yaml.Token

/-!
From a text to its tokens. Outside flow collections the column of a token opens and closes block
collections. Whether something is a key is only known when its colon comes, so the places of
possible keys are kept, one for each depth of flow collections, and the key token is put in before
them. Every step takes at least one character, so the length of the text is fuel enough.
-/
namespace DecisionGate.Yaml

/-- Something that a colon would make a key. Where a key has to stand it may not stay without. -/
structure PossibleKey where
  place : Nat
  required : Bool
  index : Nat
  line : Nat
  column : Nat
  deriving DecidableEq, Repr

structure Lexer where
  cursor : Cursor
  tokens : Array Token := #[]
  /-- How many flow collections are open. -/
  depth : Nat := 0
  /-- The column of the innermost block collection, less than zero when there is none. -/
  indent : Int := -1
  outer : List Int := []
  keyAllowed : Bool := true
  possible : List (Nat × PossibleKey) := []

namespace Lexer

/-- No key is longer. -/
def longestKey : Nat := 1024

def isFlow (l : Lexer) : Bool := 0 < l.depth

def push (l : Lexer) (t : Token) : Lexer := { l with tokens := l.tokens.push t }

def column (l : Lexer) : Int := l.cursor.column

/-- Puts a token in at a place. -/
def putIn (l : Lexer) (place : Nat) (t : Token) : Lexer :=
  let before := l.tokens.extract 0 place
  let after := l.tokens.extract place l.tokens.size
  { l with tokens := before.push t ++ after }

def isStale (l : Lexer) (k : PossibleKey) : Bool :=
  k.line != l.cursor.line || longestKey < l.cursor.index - k.index

/-- Gives up the keys that the reading has left behind. -/
def dropStale (l : Lexer) : Read Lexer :=
  if l.possible.any fun p => p.2.required && l.isStale p.2 then .error .malformed
  else .ok { l with possible := l.possible.filter fun p => !l.isStale p.2 }

/-- Gives up the possible key at the present depth. -/
def dropKey (l : Lexer) : Read Lexer :=
  match l.possible.lookup l.depth with
  | some k =>
    if k.required then .error .malformed
    else .ok { l with possible := l.possible.filter fun p => p.1 != l.depth }
  | none => .ok l

/-- Notes that what comes next could be a key. -/
def noteKey (l : Lexer) : Read Lexer :=
  if l.keyAllowed then do
    let l ← l.dropKey
    let k : PossibleKey :=
      { place := l.tokens.size, required := !l.isFlow && l.indent = l.column
        index := l.cursor.index, line := l.cursor.line, column := l.cursor.column }
    .ok { l with possible := l.possible ++ [(l.depth, k)] }
  else .ok l

/-- Closes block collections whose column is greater. -/
def closeTo (column : Int) : List Int → Lexer → Lexer
  | [], l => l
  | outer :: rest, l =>
    if column < l.indent then
      closeTo column rest { l.push .blockEnd with indent := outer, outer := rest }
    else l

def unwind (l : Lexer) (column : Int) : Lexer :=
  if l.isFlow then l else closeTo column l.outer l

/-- Whether a column opens a block collection. -/
def opensAt (l : Lexer) (column : Int) : Bool := l.indent < column

def openAt (l : Lexer) (column : Int) : Lexer :=
  { l with indent := column, outer := l.indent :: l.outer }

/-- Opens a block collection here if the column asks for one. -/
def openHere (l : Lexer) (t : Token) : Lexer :=
  if l.opensAt l.column then (l.openAt l.column).push t else l

/-- One sign that is a token. -/
def sign (l : Lexer) (t : Token) : Lexer := { l.push t with cursor := l.cursor.next }

/-- The end of all block collections before a directive, a marker or the end. -/
def finishBlocks (l : Lexer) : Read Lexer := do
  let l ← (l.unwind (-1)).dropKey
  .ok { l with keyAllowed := false }

def marker (l : Lexer) (t : Token) : Read Lexer := do
  let l ← l.finishBlocks
  .ok { l.push t with cursor := l.cursor.advance 3 }

def versionNumber (c : Cursor) : Read (Nat × Cursor) := do
  let (digits, c) ← c.span1 Char.isDigit
  .ok (digits.foldl (fun n x => n * 10 + (x.toNat - '0'.toNat)) 0, c)

def versionDirective (c : Cursor) : Read (Directive × Cursor) := do
  let (major, c) ← versionNumber (c.skip isSpace)
  let c ← c.expect '.'
  let (_, c) ← versionNumber c
  if c.isAtSpaceOrBreak then .ok (.version major, c) else .error .malformed

def handleDirective (fuel : Nat) (c : Cursor) : Read (Directive × Cursor) := do
  let (name, c) ← tagHandle (c.skip isSpace)
  if c.peek != some ' ' then .error c.refusal
  else
    let (uri, c) ← tagUri fuel (c.skip isSpace)
    if c.isAtSpaceOrBreak then .ok (.handle name uri, c) else .error .malformed

/-- A directive, from its sign on. -/
def directive (l : Lexer) (fuel : Nat) : Read Lexer := do
  let l ← l.finishBlocks
  let (name, c) ← l.cursor.next.span1 isNameChar
  if !c.isAtSpaceOrBreak then .error .malformed
  else
    let (d, c) ←
      match String.ofList name with
      | "YAML" => versionDirective c
      | "TAG" => handleDirective fuel c
      | _ => .ok (Directive.other, c.skip fun x => !isBreak x)
    let c ← c.ignoredLine
    .ok { l.push (.directive d) with cursor := c }

def openFlow (l : Lexer) (t : Token) : Read Lexer := do
  let l ← l.noteKey
  .ok { l.sign t with depth := l.depth + 1, keyAllowed := true }

/-- A flow collection cannot end where none is open. -/
def closeFlow (l : Lexer) (t : Token) : Read Lexer := do
  let l ← l.dropKey
  match l.depth with
  | 0 => .error .malformed
  | depth + 1 => .ok { l.sign t with depth, keyAllowed := false }

def flowEntry (l : Lexer) : Read Lexer := do
  let l ← l.dropKey
  .ok { l.sign .flowEntry with keyAllowed := true }

def blockEntry (l : Lexer) : Read Lexer :=
  if !l.isFlow && !l.keyAllowed then .error .malformed
  else do
    let l := if l.isFlow then l else l.openHere .blockSequence
    let l ← l.dropKey
    .ok { l.sign .blockEntry with keyAllowed := true }

/-- The sign of a key that is written out. -/
def explicitKey (l : Lexer) : Read Lexer :=
  if !l.isFlow && !l.keyAllowed then .error .malformed
  else do
    let l := if l.isFlow then l else l.openHere .blockMapping
    let l ← l.dropKey
    .ok { l.sign .key with keyAllowed := !l.isFlow }

/-- A colon makes the possible key at this depth a key; without one it belongs to a key that was
written out. -/
def valueSign (l : Lexer) : Read Lexer :=
  match l.possible.lookup l.depth with
  | some k =>
    let l := { l with possible := l.possible.filter fun p => p.1 != l.depth }
    let l := l.putIn k.place .key
    let l :=
      if !l.isFlow && l.opensAt k.column then (l.openAt k.column).putIn k.place .blockMapping else l
    .ok { l.sign .value with keyAllowed := false }
  | none =>
    if !l.isFlow && !l.keyAllowed then .error .malformed
    else do
      let l := if l.isFlow then l else l.openHere .blockMapping
      let l ← l.dropKey
      .ok { l.sign .value with keyAllowed := !l.isFlow }

/-- What may come right after the name of an anchor. -/
def endsName (c : Cursor) : Bool :=
  c.isAtOrEnd fun x => isSpaceOrTab x || isBreak x || "?:,]\x7d%@\x60".toList.contains x

/-- An anchor or a reference to one. -/
def named (l : Lexer) (t : String → Token) : Read Lexer := do
  let l ← l.noteKey
  let (name, c) ← l.cursor.next.span1 isNameChar
  if endsName c then .ok { l.push (t (String.ofList name)) with cursor := c, keyAllowed := false }
  else .error .malformed

/-- Whether a tag has a handle with a name: a second sign before the next blank. -/
def hasHandle (c : Cursor) : Bool :=
  ((c.next.rest.takeWhile fun x => !(isSpace x || isBreak x))).contains '!'

def tagText (fuel : Nat) (c : Cursor) : Read (TagText × Cursor) :=
  if c.peekAt 1 = some '<' then do
    let (uri, c) ← tagUri fuel (c.advance 2)
    let c ← c.expect '>'
    .ok (⟨none, uri⟩, c)
  else if c.isAtGap 1 then .ok (⟨none, "!"⟩, c.next)
  else do
    let (handle, c) ← if hasHandle c then tagHandle c else .ok ("!", c.next)
    let (suffix, c) ← tagUri fuel c
    .ok (⟨some handle, suffix⟩, c)

def tag (l : Lexer) (fuel : Nat) : Read Lexer := do
  let l ← l.noteKey
  let (t, c) ← tagText fuel l.cursor
  if c.isAtSpaceOrBreak then .ok { l.push (.tag t) with cursor := c, keyAllowed := false }
  else .error .malformed

def block (l : Lexer) (folded : Bool) (fuel : Nat) : Read Lexer := do
  let l ← l.dropKey
  let (text, c) ← blockScalar folded l.indent fuel l.cursor.next
  .ok { l.push (.scalar (String.ofList text) false) with cursor := c, keyAllowed := true }

def quoted (l : Lexer) (double : Bool) (fuel : Nat) : Read Lexer := do
  let l ← l.noteKey
  let (text, c) ← quotedScalar double fuel l.cursor.next
  .ok { l.push (.scalar (String.ofList text) false) with cursor := c, keyAllowed := false }

def plain (l : Lexer) (fuel : Nat) : Read Lexer := do
  let l ← l.noteKey
  let (text, c, broken) := plainScalar l.isFlow (l.indent + 1) fuel l.cursor
  .ok { l.push (.scalar (String.ofList text) true) with cursor := c, keyAllowed := broken }

def signs : List Char :=
  ['-', '?', ':', ',', '[', ']', '{', '}', '#', '&', '*', '!', '|', '>', '\'', '"', '%', '@',
   '\x60']

/-- Whether a plain scalar begins here. -/
def isPlain (l : Lexer) (x : Char) : Bool :=
  !(isSpaceOrTab x || isBreak x || signs.contains x) ||
    (!l.cursor.isAtGap 1 && (x = '-' || (!l.isFlow && (x = '?' || x = ':'))))

/-- Goes on over blanks, comments and line breaks. A new line outside flow collections may begin
with a key. -/
def skipBlanks : Nat → Lexer → Lexer
  | 0, l => l
  | fuel + 1, l =>
    let c := (l.cursor.skip isSpace).skipComment
    match c.lineBreak? with
    | some (_, c) =>
      skipBlanks fuel { l with cursor := c, keyAllowed := l.keyAllowed || !l.isFlow }
    | none => { l with cursor := c }

/-- A mark of byte order may open the text. -/
def skipMark (l : Lexer) : Lexer :=
  if l.cursor.index = 0 && l.cursor.peek = some byteOrderMark then
    { l with cursor := l.cursor.next }
  else l

/-- The token that begins with this character. -/
def token (l : Lexer) (fuel : Nat) (x : Char) : Read Lexer :=
  let c := l.cursor
  let first := c.column = 0
  let indicator := l.isFlow || c.isAtGap 1
  if first && x = '%' then l.directive fuel
  else if first && c.isAtMarker '-' then l.marker .documentStart
  else if first && c.isAtMarker '.' then l.marker .documentEnd
  else if x = '[' then l.openFlow .flowSequence
  else if x = '{' then l.openFlow .flowMapping
  else if x = ']' then l.closeFlow .flowSequenceEnd
  else if x = '}' then l.closeFlow .flowMappingEnd
  else if x = ',' then l.flowEntry
  else if x = '-' && c.isAtGap 1 then l.blockEntry
  else if x = '?' && indicator then l.explicitKey
  else if x = ':' && indicator then l.valueSign
  else if x = '*' then l.named .reference
  else if x = '&' then l.named .anchor
  else if x = '!' then l.tag fuel
  else if x = '|' && !l.isFlow then l.block false fuel
  else if x = '>' && !l.isFlow then l.block true fuel
  else if x = '\'' then l.quoted false fuel
  else if x = '"' then l.quoted true fuel
  else if l.isPlain x then l.plain fuel
  else .error .malformed

/-- The tokens of a text as far as they can be had, and why there are no more. -/
structure Scan where
  tokens : List Token
  stop : Option Problem := none
  deriving DecidableEq, Repr

/-- How many tokens are certain: those in front of whatever a colon could still make a key. -/
def certain (l : Lexer) : Nat := l.possible.foldl (fun n p => min n p.2.place) l.tokens.size

/-- Refuses to be where the text is stopped. -/
def unstopped (l : Lexer) : Read Lexer :=
  match l.cursor.stopped? with
  | some p => .error p
  | none => .ok l

/-- One step: the next token, or the end of the text, with whether it was the end. -/
def step (size : Nat) (l : Lexer) : Read (Lexer × Bool) := do
  let l ← (skipBlanks size l.skipMark).unstopped
  let l ← l.dropStale
  let l := l.unwind l.column
  match l.cursor.peek with
  | none =>
    let l ← l.finishBlocks
    .ok (l, true)
  | some x =>
    let l ← l.token size x
    let l ← l.unstopped
    .ok (l, false)

/-- Tokens up to the end of the text, or to a fault. A fault leaves the tokens that were certain
before it; whether a key was left behind is looked at before and after the blanks. -/
def run (size : Nat) : Nat → Lexer → Scan
  | 0, _ => { tokens := [], stop := some .malformed }
  | fuel + 1, l =>
    let failed (n : Nat) (p : Problem) : Scan :=
      { tokens := (l.tokens.extract 0 n).toList, stop := some p }
    match l.dropStale with
    | .error p => failed l.certain p
    | .ok l =>
      match step size l with
      | .error p => failed l.certain p
      | .ok (l, true) => { tokens := l.tokens.toList }
      | .ok (l, false) => run size fuel l

end Lexer

/-- The tokens of a source. -/
def tokens (s : Source) : Lexer.Scan :=
  let size := s.chars.length + 2
  Lexer.run size size { cursor := { rest := s.chars, stop := s.stop } }

end DecisionGate.Yaml
