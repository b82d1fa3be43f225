import DecisionGate.Text.Utf8
import DecisionGate.Yaml.Cursor

/-!
The texts of scalars in their written forms: quoted, plain and block scalars, where line breaks are
folded or kept, and the names that tags and anchors have. Each function begins at a place and gives
what it read with the place after it; the fuel is at least the length of what is left.
-/
namespace DecisionGate.Yaml

def natOfHex (cs : List Char) : Nat :=
  cs.foldl (fun n c =>
    n * 16 + (if c.isDigit then c.toNat - '0'.toNat else c.toLower.toNat - 'a'.toNat + 10)) 0

/-- As many hexadecimal digits as are asked for. -/
def hexDigits (c : Cursor) (count : Nat) : Read (Nat × Cursor) :=
  let digits := (c.rest.take count).takeWhile isHex
  let after := c.advance digits.length
  if digits.length = count then .ok (natOfHex digits, after) else .error after.refusal

/-- Line breaks inside a quoted scalar, with the blanks around them left out. No document may start
or end there. -/
def quotedBreaks : Nat → Cursor → Read (List Char × Cursor)
  | 0, c => .ok ([], c)
  | fuel + 1, c =>
    if c.isAtSeparator then .error .malformed
    else
      let c := c.skip isSpaceOrTab
      match c.lineBreak? with
      | none => .ok ([], c)
      | some (x, c) => do
        let (more, c) ← quotedBreaks fuel c
        .ok (x :: more, c)

/-- A single line break becomes a space, of several the first is dropped. -/
def foldBreaks (first : Char) (more : List Char) : List Char :=
  if first ≠ '\n' then first :: more else if more.isEmpty then [' '] else more

/-- Blanks inside a quoted scalar: they stay unless a line break follows. -/
def quotedBlanks (fuel : Nat) (c : Cursor) : Read (List Char × Cursor) :=
  let (blanks, c) := c.span isSpaceOrTab
  match c.lineBreak? with
  | some (x, c) => do
    let (more, c) ← quotedBreaks fuel c
    .ok (foldBreaks x more, c)
  | none => if c.isAtEnd then .error c.refusal else .ok (blanks, c)

/-- The characters that a letter after a backslash stands for. -/
def escapes : List (Char × Char) :=
  [('0', '\x00'), ('a', '\x07'), ('b', '\x08'), ('t', '\t'), ('\t', '\t'), ('n', '\n'),
   ('v', '\x0B'), ('f', '\x0C'), ('r', '\r'), ('e', '\x1B'), (' ', ' '), ('"', '"'), ('\\', '\\'),
   ('/', '/'), ('N', '\u0085'), ('_', '\u00A0'), ('L', '\u2028'), ('P', '\u2029')]

/-- How many digits the escapes by number have. -/
def numberEscapes : List (Char × Nat) := [('x', 2), ('u', 4), ('U', 8)]

/-- The character with a number, which can be half of a pair. -/
def charOfNumber (n : Nat) : Read Char :=
  if n ≤ 0x10FFFF then .ok (Text.charOf n) else .error (.codePoint n)

/-- What follows a backslash. -/
def escaped (fuel : Nat) (c : Cursor) : Read (List Char × Cursor) :=
  match c.peek with
  | none => .error c.refusal
  | some x =>
    match escapes.lookup x, numberEscapes.lookup x with
    | some y, _ => .ok ([y], c.next)
    | none, some count => do
      let (n, c) ← hexDigits c.next count
      let y ← charOfNumber n
      .ok ([y], c)
    | none, none =>
      if isBreak x then quotedBreaks fuel c.skipLineBreak else .error .malformed

/-- The text of a quoted scalar after its opening quote. -/
def quotedScalar (double : Bool) : Nat → Cursor → Read (List Char × Cursor)
  | 0, _ => .error .malformed
  | fuel + 1, c =>
    let goOn (piece : List Char) (c : Cursor) : Read (List Char × Cursor) := do
      let (more, c) ← quotedScalar double fuel c
      .ok (piece ++ more, c)
    match c.rest with
    | [] => .error c.refusal
    | x :: rest =>
      if x = '\'' && !double then
        if rest.head? = some '\'' then goOn ['\''] (c.advance 2) else .ok ([], c.next)
      else if x = '"' && double then .ok ([], c.next)
      else if x = '\\' && double then do
        let (piece, c) ← escaped fuel c.next
        goOn piece c
      else if isSpaceOrTab x || isBreak x then do
        let (piece, c) ← quotedBlanks fuel c
        goOn piece c
      else goOn [x] c.next

def isFlowSign (c : Char) : Bool := [',', '?', '[', ']', '{', '}'].contains c

/-- Whether a colon before this character ends a plain scalar. -/
def endsBeforeColon (flow : Bool) : Option Char → Bool
  | none => true
  | some x =>
    isSpaceOrTab x || isBreak x || (flow && [',', '[', ']', '{', '}'].contains x)

/-- The part of a plain scalar up to the next blank. -/
def plainWord (flow : Bool) : List Char → List Char
  | [] => []
  | x :: rest =>
    if isSpaceOrTab x || isBreak x || (x = ':' && endsBeforeColon flow rest.head?) ||
        (flow && isFlowSign x) then []
    else x :: plainWord flow rest

/-- Further line breaks in a plain scalar; none if a document starts or ends after one of them. -/
def plainBreaks : Nat → Cursor → Option (List Char) × Cursor
  | 0, c => (some [], c)
  | fuel + 1, c =>
    let c := c.skip isSpace
    match c.lineBreak? with
    | none => (some [], c)
    | some (x, c) =>
      if c.isAtSeparator then (none, c)
      else
        let (more, c) := plainBreaks fuel c
        (more.map (x :: ·), c)

/-- Blanks inside a plain scalar, the place after them, and whether they span lines. Nothing is left
of them when a document starts or ends there. -/
def plainBlanks (fuel : Nat) (c : Cursor) : List Char × Cursor × Bool :=
  let (blanks, c) := c.span isSpace
  match c.lineBreak? with
  | none => (blanks, c, false)
  | some (x, c) =>
    if c.isAtSeparator then ([], c, true)
    else
      let (more, c) := plainBreaks fuel c
      ((more.map (foldBreaks x)).getD [], c, true)

/-- The text of a plain scalar, and whether it ended at the beginning of a line. Outside flow
collections its lines have to be indented to a column. -/
def plainScalar (flow : Bool) (indent : Int) : Nat → Cursor → List Char × Cursor × Bool
  | 0, c => ([], c, false)
  | fuel + 1, c =>
    let word := if c.peek = some '#' then [] else plainWord flow c.rest
    if word.isEmpty then ([], c, false)
    else
      let (blanks, c, broken) := plainBlanks fuel (c.advance word.length)
      if blanks.isEmpty || c.peek = some '#' || (!flow && (c.column : Int) < indent) then
        (word, c, broken)
      else
        match plainScalar flow indent fuel c with
        | ([], c, _) => (word, c, broken)
        | (more, c, broken) => (word ++ blanks ++ more, c, broken)

/-- What becomes of the line breaks at the end of a block scalar. -/
inductive Chomping where
  | strip
  | clip
  | keep
  deriving DecidableEq, Repr

def chomping? (c : Cursor) : Option Chomping × Cursor :=
  match c.peek with
  | some '+' => (some .keep, c.next)
  | some '-' => (some .strip, c.next)
  | _ => (none, c)

def increment? (c : Cursor) : Read (Option Nat × Cursor) :=
  match c.peek with
  | some x =>
    if x = '0' then .error .malformed
    else if x.isDigit then .ok (some (x.toNat - '0'.toNat), c.next)
    else .ok (none, c)
  | none => .ok (none, c)

/-- The indicators of a block scalar, in either order. -/
def blockHeader (c : Cursor) : Read (Chomping × Option Nat × Cursor) := do
  let (first, c) := chomping? c
  let (increment, c) ← increment? c
  let (second, c) := if first.isNone && increment.isSome then chomping? c else (none, c)
  if !c.isAtSpaceOrBreak then .error .malformed
  else .ok ((first.or second).getD .clip, increment, c)

/-- Leading blank lines of a block scalar, and the greatest column that blanks reached. -/
def leadingBreaks : Nat → Nat → Cursor → List Char × Nat × Cursor
  | 0, widest, c => ([], widest, c)
  | fuel + 1, widest, c =>
    let after := c.skip isSpace
    let widest := max widest (if after.index = c.index then 0 else after.column)
    match after.lineBreak? with
    | none => ([], widest, after)
    | some (x, c) =>
      let (more, widest, c) := leadingBreaks fuel widest c
      (x :: more, widest, c)

/-- Goes on over blanks, up to a column. -/
def skipToColumn (column : Nat) : Nat → Cursor → Cursor
  | 0, c => c
  | fuel + 1, c =>
    if c.column < column && c.peek = some ' ' then skipToColumn column fuel c.next else c

/-- Blank lines of a block scalar, up to a line with something at its column. -/
def blockBreaks (column : Nat) : Nat → Cursor → List Char × Cursor
  | 0, c => ([], c)
  | fuel + 1, c =>
    let c := skipToColumn column column c
    match c.lineBreak? with
    | none => ([], c)
    | some (x, c) =>
      let (more, c) := blockBreaks column fuel c
      (x :: more, c)

/-- What stands between two lines of a block scalar. Folding leaves a single break between two lines
that begin with no blank as a space. -/
def joinLines (folded : Bool) (firstBlank secondBlank : Bool) (lineBreak breaks : List Char) :
    List Char :=
  if folded && lineBreak == ['\n'] && !firstBlank && !secondBlank then
    (if breaks.isEmpty then [' '] else breaks)
  else lineBreak ++ breaks

def chomp (how : Chomping) (lineBreak breaks : List Char) : List Char :=
  match how with
  | .strip => []
  | .clip => lineBreak
  | .keep => lineBreak ++ breaks

/-- The lines of a block scalar, from a place at its column. -/
def blockLines (folded : Bool) (how : Chomping) (column : Nat) :
    Nat → Cursor → List Char × Cursor
  | 0, c => ([], c)
  | fuel + 1, c =>
    let firstBlank := c.isAt isSpaceOrTab
    let (line, c) := c.span (fun x => !isBreak x)
    let lineBreak := (c.lineBreak?.map fun p => [p.1]).getD []
    let (breaks, c) := blockBreaks column fuel c.skipLineBreak
    if c.column = column && !c.isAtEnd then
      let (more, after) := blockLines folded how column fuel c
      (line ++ joinLines folded firstBlank (c.isAt isSpaceOrTab) lineBreak breaks ++ more, after)
    else (line ++ chomp how lineBreak breaks, c)

/-- The text of a block scalar after its sign; `indent` is the column of what holds it. -/
def blockScalar (folded : Bool) (indent : Int) (fuel : Nat) (c : Cursor) :
    Read (List Char × Cursor) := do
  let (how, increment, c) ← blockHeader c
  let c ← c.ignoredLine
  let least := (max (indent + 1) 1).toNat
  let (breaks, column, c) :=
    match increment with
    | none =>
      let (breaks, widest, c) := leadingBreaks fuel 0 c
      (breaks, max least widest, c)
    | some n =>
      let column := least + n - 1
      let (breaks, c) := blockBreaks column fuel c
      (breaks, column, c)
  if c.column = column && !c.isAtEnd then
    let (text, c) := blockLines folded how column fuel c
    .ok (breaks ++ text, c)
  else .ok (chomp how [] breaks, c)

def isUriChar (c : Char) : Bool :=
  c.isAlphanum || "-;/?:@&=+$,_.!~*'()[]%".toList.contains c

/-- Octets that are written by number. -/
def uriOctets : Nat → Cursor → Read (List Nat × Cursor)
  | 0, c => .ok ([], c)
  | fuel + 1, c =>
    if c.peek = some '%' then do
      let (n, c) ← hexDigits c.next 2
      let (more, c) ← uriOctets fuel c
      .ok (n :: more, c)
    else .ok ([], c)

def uriPieces : Nat → Cursor → Read (List Char × Cursor)
  | 0, c => .ok ([], c)
  | fuel + 1, c =>
    match c.peek with
    | some '%' => do
      let (octets, c) ← uriOctets fuel c
      match Utf8.decode octets with
      | .error _ => .error .malformed
      | .ok piece => do
        let (more, c) ← uriPieces fuel c
        .ok (piece.toList ++ more, c)
    | some x =>
      if isUriChar x then do
        let (more, c) ← uriPieces fuel c.next
        .ok (x :: more, c)
      else .ok ([], c)
    | none => .ok ([], c)

/-- The name of a tag, or the rest of it after a handle. -/
def tagUri (fuel : Nat) (c : Cursor) : Read (String × Cursor) :=
  if c.isAt isUriChar then (uriPieces fuel c).map fun (cs, c) => (String.ofList cs, c)
  else .error c.refusal

/-- A tag handle: a sign alone, or a name between two signs. -/
def tagHandle (c : Cursor) : Read (String × Cursor) := do
  let c ← c.expect '!'
  if c.peek = some ' ' then .ok ("!", c)
  else
    let (name, c) := c.span isNameChar
    let c ← c.expect '!'
    .ok (String.ofList ('!' :: name ++ ['!']), c)

end DecisionGate.Yaml
