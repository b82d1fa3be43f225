import DecisionGate.Text.Blank

/-!
Cutting a text: into lines at every kind of line break, at a separator, at runs of blanks; and the
search for one text in another.
-/
namespace DecisionGate.Text

/-- Characters that end a line. A carriage return and a following line feed are one break. -/
def isLineBreak (c : Char) : Bool :=
  [0x0A, 0x0B, 0x0C, 0x0D, 0x1C, 0x1D, 0x1E, 0x85, 0x2028, 0x2029].contains c.toNat

/-- Lines of a text whose current line is given in reverse; a break at the very end opens none. -/
def linesFrom (current : List Char) : List Char → List (List Char)
  | [] => if current.isEmpty then [] else [current.reverse]
  | '\r' :: '\n' :: rest => current.reverse :: linesFrom [] rest
  | c :: rest =>
    if isLineBreak c then current.reverse :: linesFrom [] rest
    else linesFrom (c :: current) rest

def lines (cs : List Char) : List (List Char) := linesFrom [] cs

/-- Every line break of a file that is read as text becomes a line feed. -/
def unixBreaks : List Char → List Char
  | [] => []
  | '\r' :: '\n' :: rest => '\n' :: unixBreaks rest
  | '\r' :: rest => '\n' :: unixBreaks rest
  | c :: rest => c :: unixBreaks rest

def splitFrom (separator : Char) (current : List Char) : List Char → List (List Char)
  | [] => [current.reverse]
  | c :: rest =>
    if c = separator then current.reverse :: splitFrom separator [] rest
    else splitFrom separator (c :: current) rest

/-- The parts between separators, empty ones included; never the empty list. -/
def split (separator : Char) (cs : List Char) : List (List Char) := splitFrom separator [] cs

/-- Whether a text begins with another. -/
def startsWith (cs start : List Char) : Bool := start.isPrefixOf cs

/-- Whether one text occurs in another. -/
def occursIn (needle : List Char) : List Char → Bool
  | [] => needle.isEmpty
  | c :: rest => needle.isPrefixOf (c :: rest) || occursIn needle rest

def contains (hay needle : String) : Bool := occursIn needle.toList hay.toList

theorem occursIn_iff_infix (needle hay : List Char) :
    occursIn needle hay = true ↔ needle <:+: hay := by
  induction hay with
  | nil => simp [occursIn]
  | cons c rest ih => simp [occursIn, ih, List.infix_cons_iff]

end DecisionGate.Text
