import DecisionGate.Schema.Problem
import DecisionGate.Numeric.Reader
import DecisionGate.Text.Lines
import DecisionGate.Text.Utf8

/-!
Reading typed fields out of documents. Problems of all fields are collected in the order of the
fields. Numbers are read tolerantly here: a truth value or the text of a number will do.
-/
namespace DecisionGate.Schema

abbrev Checked (α : Type) := Except (List Problem) α

namespace Checked

variable {α β : Type}

/-- Applies what was read so far to the next field, and keeps the problems of both. -/
def ap (f : Checked (α → β)) (x : Checked α) : Checked β :=
  match f, x with
  | .ok f, .ok a => .ok (f a)
  | .error e, .ok _ => .error e
  | .ok _, .error e => .error e
  | .error e, .error e' => .error (e ++ e')

/-- Problems below a step. -/
def under (step : Step) (x : Checked α) : Checked α :=
  x.mapError fun ps => ps.map (Problem.under step)

/-- All items, or the problems of all. -/
def all : List (Checked α) → Checked (List α)
  | [] => .ok []
  | x :: rest => ap (x.map List.cons) (all rest)

end Checked

def refuse {α : Type} (e : Expectation) (v : Value) : Checked α := .error [⟨e, [], v⟩]

def text (v : Value) : Checked String :=
  match v with
  | .str s => .ok s
  | v => refuse .text v

/-- A text that is looked into can have no halves of pairs. -/
def whole {α : Type} (s : String) (read : String → Checked α) : Checked α :=
  if (Utf8.gap? (fun _ => false) s).isSome then refuse .unicode (.str s) else read s

/-- Numerals of a schema know no digits but the common ones; underscores may separate digits. -/
def readNumber? (s : String) : Option Float :=
  let read (cs : List Char) : Option Float :=
    let (negative, name) := Decimal.takeSign cs
    match Decimal.namedValue? negative name with
    | some x => some x
    | none => (Decimal.Numeral.read? cs).map Decimal.Numeral.value
  let cs := s.toList
  match read (Text.trimBy Text.isWhiteSpace cs) with
  | some x => some x
  | none =>
    let separated := cs.contains '_' && cs.head? != some '_' && cs.getLast? != some '_' &&
      !Text.occursIn ['_', '_'] cs
    if separated then read (cs.filter (· != '_')) else none

def number (v : Value) : Checked Float :=
  match v with
  | .float x => .ok x
  | .bool b => .ok (if b then 1.0 else 0.0)
  | .int i =>
    match Double.ofInt? i with
    | some x => .ok x
    | none => refuse .number v
  | .str s => whole s fun s =>
    match readNumber? s with
    | some x => .ok x
    | none => refuse .numberText v
  | v => refuse .number v

/-- No numeral of an integer has more digits. -/
def longestInteger : Nat := 4300

/-- Digits behind an optional minus sign, a zero in front of none of them. The number of digits is
looked at before what follows them. -/
def readSimple (cs : List Char) : Except Expectation Int :=
  let negative := cs.head? = some '-'
  let cs := if negative then cs.drop 1 else cs
  let digits := cs.takeWhile Decimal.isAsciiDigit
  if digits.isEmpty || (digits.head? = some '0' && 1 < digits.length) then .error .integerText
  else if longestInteger < digits.length then .error .integerSize
  else if digits.length ≠ cs.length then .error .integerText
  else
    let n : Int := Decimal.natOfDigits digits
    .ok (if negative then -n else n)

/-- What follows the zeros in front of a numeral; underscores may stand among them. Of zeros alone
the last is left. -/
def dropZeros? : List Char → Option (List Char)
  | '0' :: rest =>
    let more := rest.dropWhile fun c => c = '0' || c = '_'
    match more with
    | [] => some (('0' :: rest).drop rest.length)
    | '.' :: _ => some (('0' :: rest).drop (rest.length - more.length))
    | c :: _ => if Decimal.isAsciiDigit c then some more else none
  | c :: rest => if c = '-' || Decimal.isAsciiDigit c then some (c :: rest) else none
  | [] => none

/-- What stands before a point with nothing but zeros behind it. -/
def dropFraction? (cs : List Char) : Option (List Char) :=
  match cs.dropWhile (· != '.') with
  | [] => some cs
  | _ :: fraction =>
    if !fraction.isEmpty && fraction.all (· == '0') then some (cs.takeWhile (· != '.')) else none

/-- Single underscores may stand anywhere but at the ends. -/
def dropUnderscores (cs : List Char) : List Char :=
  if cs.head? != some '_' && cs.getLast? != some '_' && !Text.occursIn ['_', '_'] cs then
    cs.filter (· != '_')
  else cs

/-- The simple form of a numeral with blanks around it, a plus sign, zeros in front, a fraction of
zeros or underscores. -/
def simplify? (cs : List Char) : Option (List Char) :=
  match Text.trimBy Text.isWhiteSpace cs with
  | '+' :: '-' :: _ => none
  | '+' :: rest => (dropZeros? rest).bind fun cs => (dropFraction? cs).map dropUnderscores
  | cs => (dropZeros? cs).bind fun cs => (dropFraction? cs).map dropUnderscores

def readInteger (s : String) : Except Expectation Int :=
  match readSimple s.toList with
  | .error .integerText =>
    match simplify? s.toList with
    | some cs => readSimple cs
    | none => .error .integerText
  | r => r

def trueTexts : List String := ["1", "on", "t", "true", "y", "yes"]

def falseTexts : List String := ["0", "off", "f", "false", "n", "no"]

/-- Whether an integer takes no more than sixty-four bits. -/
def isWord (i : Int) : Bool := -(twoTo 63 : Int) ≤ i && i < twoTo 63

/-- Whether a double is an integer strictly between the bounds of a word. -/
def isWordValue (x : Float) : Bool :=
  Double.isIntegral x && Double.compareInt x (-(twoTo 63 : Int)) == some .gt &&
    Double.compareInt x (twoTo 63) == some .lt

/-- The integer that a double is. -/
def wholeValue? (x : Float) : Option Int :=
  match Double.parts x with
  | .finite negative m e =>
    let n : Int := if 0 ≤ e then m * twoTo e.toNat else m / twoTo (-e).toNat
    some (if negative then -n else n)
  | _ => none

/-- A double stands for an integer that takes no more than a word. -/
def integer (v : Value) : Checked Int :=
  match v with
  | .int i => .ok i
  | .bool b => .ok (if b then 1 else 0)
  | .float x =>
    match wholeValue? x with
    | none => refuse .finiteNumber v
    | some i =>
      if !Double.isIntegral x then refuse .wholeNumber v
      else if isWordValue x then .ok i
      else refuse .integerSize v
  | .str s => whole s fun s =>
    match readInteger s with
    | .ok i => .ok i
    | .error e => refuse e v
  | v => refuse .integer v

/-- Truth values can also be given as zero, one or one of some texts. Another number is taken for
one that means nothing if it is an integer of a word, and for no truth value at all otherwise. -/
def boolean (v : Value) : Checked Bool :=
  match v with
  | .bool b => .ok b
  | .int 0 => .ok false
  | .int 1 => .ok true
  | .int i => refuse (if isWord i then .booleanText else .boolean) v
  | .float x =>
    if x == 0.0 then .ok false
    else if x == 1.0 then .ok true
    else refuse (if isWordValue x then .booleanText else .boolean) v
  | .str s => whole s fun s =>
    let lowered := String.ofList (s.toList.map Char.toLower)
    if trueTexts.contains lowered then .ok true
    else if falseTexts.contains lowered then .ok false
    else refuse .booleanText v
  | v => refuse .boolean v

def optional {α : Type} (check : Value → Checked α) (v : Value) : Checked (Option α) :=
  match v with
  | .null => .ok none
  | v => (check v).map some

/-- One of some words. -/
def choice {α : Type} (options : List (String × α)) (v : Value) : Checked α :=
  let refused : Checked α := refuse (.choice (options.map Prod.fst)) v
  match v with
  | .str s => whole s fun s =>
    match options.lookup s with
    | some a => .ok a
    | none => refused
  | _ => refused

def listOf {α : Type} (check : Value → Checked α) (v : Value) : Checked (List α) :=
  match v with
  | .list xs => Checked.all (xs.zipIdx.map fun (x, i) => (check x).under (.index i))
  | v => refuse .list v

def mapping (v : Value) : Checked Entries :=
  match v with
  | .map es => .ok es
  | v => refuse .mapping v

/-- A mapping from names. -/
def mappingOf {α : Type} (check : Value → Checked α) (v : Value) : Checked (List (String × α)) :=
  match v with
  | .map es =>
    Checked.all (es.map fun (k, x) => (check x).under (.name k.text) |>.map fun a => (k.text, a))
  | v => refuse .mapping v

def required {α : Type} (es : Entries) (name : String) (check : Value → Checked α) : Checked α :=
  match es.get? name with
  | some v => (check v).under (.name name)
  | none => .error [⟨.present, [.name name], .map es⟩]

def withDefault {α : Type} (es : Entries) (name : String) (check : Value → Checked α)
    (default : α) : Checked α :=
  match es.get? name with
  | some v => (check v).under (.name name)
  | none => .ok default

end DecisionGate.Schema
