import DecisionGate.Numeric.Reader
import DecisionGate.Text.Surrogate
import DecisionGate.Value.Basic

/-!
Reading JSON. Numbers without a point or an exponent are integers of any size; the names of NaN and
of the infinities are numbers too; of equal keys the last value counts. A text that is no JSON is
refused with the place at which reading stopped, and so is one that nests too deeply. Each reader
takes a bound on its steps, of which every character costs at most two.
-/
namespace DecisionGate.Json

inductive Reason where
  | value
  | propertyName
  | colon
  | comma
  | unterminatedString
  | controlCharacter
  | escape
  | unicodeEscape
  | extraData
  | byteOrderMark
  deriving DecidableEq, Repr

def Reason.text : Reason → String
  | .value => "Expecting value"
  | .propertyName => "Expecting property name enclosed in double quotes"
  | .colon => "Expecting ':' delimiter"
  | .comma => "Expecting ',' delimiter"
  | .unterminatedString => "Unterminated string starting at"
  | .controlCharacter => "Invalid control character at"
  | .escape => "Invalid \\escape"
  | .unicodeEscape => "Invalid \\uXXXX escape"
  | .extraData => "Extra data"
  | .byteOrderMark => "Unexpected UTF-8 BOM (decode using utf-8-sig)"

inductive Problem where
  | malformed (reason : Reason) (position : Nat)
  | tooManyDigits (count : Nat)
  | tooDeep
  deriving DecidableEq, Repr

/-- Line and column of a place, both from one. -/
def lineAndColumn (cs : List Char) (position : Nat) : Nat × Nat :=
  let before := cs.take position
  (before.count '\n' + 1, (before.reverse.takeWhile (· != '\n')).length + 1)

def Problem.message (source : String) : Problem → String
  | .malformed reason position =>
    let (line, column) := lineAndColumn source.toList position
    s!"{reason.text}: line {line} column {column} (char {position})"
  | .tooManyDigits count =>
    "Exceeds the limit (4300 digits) for integer string conversion: " ++
      s!"value has {count} digits; use sys.set_int_max_str_digits() to increase the limit"
  | .tooDeep => "maximum recursion depth exceeded"

/-- Characters left to read and how many were read before them. -/
structure Cursor where
  position : Nat
  rest : List Char

def isSpace (c : Char) : Bool := c = ' ' || c = '\t' || c = '\n' || c = '\r'

def Cursor.advance (cur : Cursor) (n : Nat) : Cursor := ⟨cur.position + n, cur.rest.drop n⟩

def Cursor.skipSpaces (cur : Cursor) : Cursor :=
  cur.advance (cur.rest.takeWhile isSpace).length

def Cursor.fail {α : Type} (cur : Cursor) (reason : Reason) : Except Problem α :=
  .error (.malformed reason cur.position)

def hexValue? (c : Char) : Option Nat :=
  if '0' ≤ c ∧ c ≤ '9' then some (c.toNat - '0'.toNat)
  else if 'a' ≤ c ∧ c ≤ 'f' then some (c.toNat - 'a'.toNat + 10)
  else if 'A' ≤ c ∧ c ≤ 'F' then some (c.toNat - 'A'.toNat + 10)
  else none

/-- Four hexadecimal digits with something after them. -/
def hexUnit? (cs : List Char) : Option Nat :=
  match cs with
  | a :: b :: c :: d :: _ :: _ => do
    let a ← hexValue? a
    let b ← hexValue? b
    let c ← hexValue? c
    let d ← hexValue? d
    some (((a * 16 + b) * 16 + c) * 16 + d)
  | _ => none

def isHighSurrogate (n : Nat) : Bool := 0xD800 ≤ n && n ≤ 0xDBFF

def isLowSurrogate (n : Nat) : Bool := 0xDC00 ≤ n && n ≤ 0xDFFF

/-- A `\u` escape, from its backslash. Two escapes make one character when they are a pair. -/
def readUnicodeEscape (cur : Cursor) : Except Problem (Char × Cursor) :=
  match hexUnit? (cur.rest.drop 2) with
  | none => (cur.advance 1).fail .unicodeEscape
  | some high =>
    let next := cur.advance 6
    match isHighSurrogate high, next.rest with
    | true, '\\' :: 'u' :: tail =>
      if tail.length ≤ 4 then .ok (Text.charOf high, next)
      else
        match hexUnit? tail with
        | none => (next.advance 1).fail .unicodeEscape
        | some low =>
          if isLowSurrogate low then
            .ok (Char.ofNat (0x10000 + (high - 0xD800) * 0x400 + (low - 0xDC00)), next.advance 6)
          else .ok (Text.charOf high, next)
    | _, _ => .ok (Text.charOf high, next)

def simpleEscape? : Char → Option Char
  | '"' => some '"'
  | '\\' => some '\\'
  | '/' => some '/'
  | 'b' => some (Char.ofNat 0x08)
  | 'f' => some (Char.ofNat 0x0C)
  | 'n' => some '\n'
  | 'r' => some '\r'
  | 't' => some '\t'
  | _ => none

/-- The characters of a string up to its closing quote; `start` is the place of the opening one. -/
def readChars (start : Nat) : Nat → Cursor → Except Problem (List Char × Cursor)
  | 0, _ => .error (.malformed .unterminatedString start)
  | fuel + 1, cur =>
    match cur.rest with
    | [] => .error (.malformed .unterminatedString start)
    | '"' :: _ => .ok ([], cur.advance 1)
    | '\\' :: [] => .error (.malformed .unterminatedString start)
    | '\\' :: 'u' :: _ => do
      let (c, cur) ← readUnicodeEscape cur
      let (cs, cur) ← readChars start fuel cur
      .ok (c :: cs, cur)
    | '\\' :: c :: _ =>
      match simpleEscape? c with
      | none => cur.fail .escape
      | some c => do
        let (cs, cur) ← readChars start fuel (cur.advance 2)
        .ok (c :: cs, cur)
    | c :: _ =>
      if c.toNat < 0x20 then cur.fail .controlCharacter
      else do
        let (cs, cur) ← readChars start fuel (cur.advance 1)
        .ok (c :: cs, cur)

/-- A string, from its opening quote. -/
def readString (cur : Cursor) : Except Problem (String × Cursor) := do
  let (cs, cur') ← readChars cur.position (cur.rest.length + 1) (cur.advance 1)
  .ok (String.ofList cs, cur')

/-- The part of a number after its integer digits: the length of a fraction and of an exponent. -/
def fractionLength : List Char → Nat
  | '.' :: cs => match (cs.takeWhile Decimal.isAsciiDigit).length with
    | 0 => 0
    | n => n + 1
  | _ => 0

def exponentLength : List Char → Nat
  | e :: cs =>
    if e = 'e' ∨ e = 'E' then
      let sign := match cs with
        | c :: _ => if c = '+' ∨ c = '-' then 1 else 0
        | [] => 0
      match ((cs.drop sign).takeWhile Decimal.isAsciiDigit).length with
      | 0 => 0
      | n => n + sign + 1
    else 0
  | [] => 0

/-- Integers of more digits are refused. -/
def maxDigits : Nat := 4300

/-- A number; `start` is reported when there is none. -/
def readNumber (cur : Cursor) : Except Problem (Value × Cursor) :=
  let (negative, body) : Bool × List Char := match cur.rest with
    | '-' :: rest => (true, rest)
    | rest => (false, rest)
  let whole := match body with
    | '0' :: _ => ['0']
    | _ => body.takeWhile Decimal.isAsciiDigit
  if whole.isEmpty then cur.fail .value
  else
    let tail := body.drop whole.length
    let fraction := fractionLength tail
    let exponent := exponentLength (tail.drop fraction)
    let length := (if negative then 1 else 0) + whole.length + fraction + exponent
    if fraction + exponent = 0 then
      if maxDigits < whole.length then .error (.tooManyDigits whole.length)
      else
        let n := Decimal.natOfDigits whole
        .ok (.int (if negative then -(n : Int) else n), cur.advance length)
    else
      match Decimal.Numeral.read? (cur.rest.take length) with
      | some numeral => .ok (.float numeral.value, cur.advance length)
      | none => cur.fail .value

def constants : List (String × Value) :=
  [("null", .null), ("true", .bool true), ("false", .bool false), ("NaN", .float Double.nan),
   ("Infinity", .float Double.infinity), ("-Infinity", .float Double.negInfinity)]

def readConstant? (cur : Cursor) : Option (Value × Cursor) :=
  constants.findSome? fun (name, v) =>
    if name.toList.isPrefixOf cur.rest then some (v, cur.advance name.length) else none

/-- So many objects and arrays may be open at once. -/
def deepest : Nat := 980

mutual

/-- One value, without spaces before it; `room` is the number of levels that may still open. -/
def readValue (room : Nat) : Nat → Cursor → Except Problem (Value × Cursor)
  | 0, cur => cur.fail .value
  | fuel + 1, cur =>
    match cur.rest with
    | '"' :: _ => do
      let (s, cur) ← readString cur
      .ok (.str s, cur)
    | '\x7b' :: _ =>
      if room = 0 then .error .tooDeep
      else
        let cur := (cur.advance 1).skipSpaces
        match cur.rest with
        | '\x7d' :: _ => .ok (.map [], cur.advance 1)
        | _ => do
          let (pairs, cur) ← readMembers (room - 1) fuel cur
          .ok (.map (Entries.ofList pairs), cur)
    | '[' :: _ =>
      if room = 0 then .error .tooDeep
      else
        let cur := (cur.advance 1).skipSpaces
        match cur.rest with
        | ']' :: _ => .ok (.list [], cur.advance 1)
        | _ => do
          let (items, cur) ← readItems (room - 1) fuel cur
          .ok (.list items, cur)
    | _ =>
      match readConstant? cur with
      | some r => .ok r
      | none => readNumber cur

/-- Members of an object from a key to the closing brace. -/
def readMembers (room : Nat) : Nat → Cursor → Except Problem (List (Key × Value) × Cursor)
  | 0, cur => cur.fail .propertyName
  | fuel + 1, cur =>
    match cur.rest with
    | '"' :: _ => do
      let (name, cur) ← readString cur
      let cur := cur.skipSpaces
      match cur.rest with
      | ':' :: _ => do
        let (v, cur) ← readValue room fuel (cur.advance 1).skipSpaces
        let cur := cur.skipSpaces
        match cur.rest with
        | '\x7d' :: _ => .ok ([(.str name, v)], cur.advance 1)
        | ',' :: _ => do
          let (more, cur) ← readMembers room fuel (cur.advance 1).skipSpaces
          .ok ((.str name, v) :: more, cur)
        | _ => cur.fail .comma
      | _ => cur.fail .colon
    | _ => cur.fail .propertyName

/-- Items of an array from a value to the closing bracket. -/
def readItems (room : Nat) : Nat → Cursor → Except Problem (List Value × Cursor)
  | 0, cur => cur.fail .value
  | fuel + 1, cur => do
    let (v, cur) ← readValue room fuel cur
    let cur := cur.skipSpaces
    match cur.rest with
    | ']' :: _ => .ok ([v], cur.advance 1)
    | ',' :: _ => do
      let (more, cur) ← readItems room fuel (cur.advance 1).skipSpaces
      .ok (v :: more, cur)
    | _ => cur.fail .comma

end

/-- One value and nothing else but spaces. -/
def read (source : String) : Except Problem Value := do
  let cs := source.toList
  if cs.head? = some (Char.ofNat 0xFEFF) then .error (.malformed .byteOrderMark 0)
  else
    let (v, cur) ← readValue deepest (2 * cs.length + 2) (Cursor.mk 0 cs).skipSpaces
    let cur := cur.skipSpaces
    if cur.rest.isEmpty then .ok v else cur.fail .extraData

end DecisionGate.Json
