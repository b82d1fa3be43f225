import DecisionGate.Value.Text

/-!
Writing JSON, on one line or indented by two spaces, with characters beyond ASCII kept or escaped.
Keys that are no texts are written as the text of the scalar; NaN and the infinities keep their
names.
-/
namespace DecisionGate.Json

/-- What a written string keeps as it is. -/
inductive Charset where
  | ascii
  | unicode
  deriving DecidableEq, Repr

def unitEscape (n : Nat) : List Char := '\\' :: 'u' :: Text.hex 4 n

/-- Two units for a character beyond the first plane, one for a half of a pair. -/
def unicodeEscape (c : Char) : List Char :=
  let n := c.toNat
  match Text.half? c with
  | some half => unitEscape half
  | none =>
    if n < 0x10000 then unitEscape n
    else unitEscape (0xD800 + (n - 0x10000) / 0x400) ++ unitEscape (0xDC00 + (n - 0x10000) % 0x400)

def escapeChar (charset : Charset) (c : Char) : List Char :=
  if c = '"' then ['\\', '"']
  else if c = '\\' then ['\\', '\\']
  else if c = '\n' then ['\\', 'n']
  else if c = '\r' then ['\\', 'r']
  else if c = '\t' then ['\\', 't']
  else if c.toNat = 0x08 then ['\\', 'b']
  else if c.toNat = 0x0C then ['\\', 'f']
  else if c.toNat < 0x20 then unicodeEscape c
  else if charset = .ascii ∧ 0x7E < c.toNat then unicodeEscape c
  else [c]

def stringText (charset : Charset) (s : String) : String :=
  String.ofList ('"' :: s.toList.flatMap (escapeChar charset) ++ ['"'])

def doubleText (x : Float) : String :=
  match Double.parts x with
  | .nan => "NaN"
  | .infinite negative => if negative then "-Infinity" else "Infinity"
  | .finite .. => Format.double x

/-- The name a key has in an object. -/
def keyName : Key → String
  | .null => "null"
  | .bool b => if b then "true" else "false"
  | .int i => Format.integer i
  | .float x => doubleText x
  | .str s => s

/-- How nested values are laid out: on one line, with blanks or without, or one item a line from a
given depth on. -/
inductive Layout where
  | compact
  | line
  | indented (depth : Nat)
  deriving DecidableEq, Repr

def Layout.deeper : Layout → Layout
  | .compact => .compact
  | .line => .line
  | .indented d => .indented (d + 1)

def Layout.newline (d : Nat) : String := String.ofList ('\n' :: List.replicate (2 * d) ' ')

/-- What stands between a name and its value. -/
def Layout.colon : Layout → String
  | .compact => ":"
  | _ => ": "

/-- Items between brackets. -/
def Layout.enclose (layout : Layout) (opening closing : String) (items : List String) : String :=
  if items.isEmpty then opening ++ closing
  else
    match layout with
    | .compact => opening ++ ",".intercalate items ++ closing
    | .line => opening ++ ", ".intercalate items ++ closing
    | .indented d =>
      let rows := ("," ++ newline (d + 1)).intercalate items
      opening ++ newline (d + 1) ++ rows ++ newline d ++ closing

mutual

def write (charset : Charset) (layout : Layout) : Value → String
  | .null => "null"
  | .bool b => if b then "true" else "false"
  | .int i => Format.integer i
  | .float x => doubleText x
  | .str s => stringText charset s
  | .list xs => layout.enclose "[" "]" (writeItems charset layout.deeper xs)
  | .map es => layout.enclose "\x7b" "\x7d" (writeMembers charset layout.deeper es)
  | .endless _ => "null"

def writeItems (charset : Charset) (layout : Layout) : List Value → List String
  | [] => []
  | v :: rest => write charset layout v :: writeItems charset layout rest

def writeMembers (charset : Charset) (layout : Layout) : List (Key × Value) → List String
  | [] => []
  | (k, v) :: rest =>
    (stringText charset (keyName k) ++ layout.colon ++ write charset layout v) ::
      writeMembers charset layout rest

end

/-- One line without blanks, every character kept. -/
def compact (v : Value) : String := write .unicode .compact v

/-- One line, every character kept. -/
def line (v : Value) : String := write .unicode .line v

/-- One line, in ASCII. -/
def lineAscii (v : Value) : String := write .ascii .line v

/-- Indented, every character kept. -/
def pretty (v : Value) : String := write .unicode (.indented 0) v

/-- Indented, in ASCII. -/
def prettyAscii (v : Value) : String := write .ascii (.indented 0) v

end DecisionGate.Json
