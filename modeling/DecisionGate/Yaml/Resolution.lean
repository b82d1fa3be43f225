import DecisionGate.Text.Lines
import DecisionGate.Yaml.Cursor

/-!
The kinds of scalars and collections, and the kind that a plain scalar has by its text. The rules
are those of version 1.1: `yes` and `no` are truth values, integers can be octal or sexagesimal, and
a double has a point. A date is kept as text.
-/
namespace DecisionGate.Yaml

inductive Tag where
  | null
  | bool
  | int
  | float
  | text
  | sequence
  | mapping
  /-- A list of pairs, written as a sequence of mappings with one entry each. -/
  | pairs
  /-- The key whose value is taken into the mapping. -/
  | merge
  /-- The key of a mapping that stands for a scalar. -/
  | scalarKey
  | other (name : String)
  deriving DecidableEq, Repr

namespace Tag

/-- How the names of the standard tags begin. -/
def standard : String := "tag:yaml.org,2002:"

def standardTags : List (String × Tag) :=
  [("null", .null), ("bool", .bool), ("int", .int), ("float", .float), ("str", .text),
   ("seq", .sequence), ("map", .mapping), ("omap", .pairs), ("pairs", .pairs), ("merge", .merge),
   ("value", .scalarKey)]

def ofName (name : String) : Tag :=
  match standardTags.find? fun p => standard ++ p.1 == name with
  | some (_, t) => t
  | none => .other name

def flagTexts : List String :=
  ["yes", "Yes", "YES", "no", "No", "NO", "true", "True", "TRUE", "false", "False", "FALSE", "on",
   "On", "ON", "off", "Off", "OFF"]

def nullTexts : List String := ["~", "null", "Null", "NULL", ""]

def dropSign : List Char → List Char
  | '+' :: rest => rest
  | '-' :: rest => rest
  | cs => cs

/-- Digits of a class with underscores among them, at least one character. -/
def isRun (digit : Char → Bool) (cs : List Char) : Bool :=
  !cs.isEmpty && cs.all fun c => digit c || c = '_'

/-- Digits and underscores that begin with a digit. -/
def isDigits : List Char → Bool
  | [] => false
  | c :: rest => c.isDigit && rest.all fun x => x.isDigit || x = '_'

/-- Digits and underscores that begin with a digit other than zero. -/
def isCounting (cs : List Char) : Bool := isDigits cs && cs.head? != some '0'

/-- A number below sixty, of one digit or two. -/
def isSixtieth : List Char → Bool
  | [a] => a.isDigit
  | [a, b] => '0' ≤ a && a ≤ '5' && b.isDigit
  | _ => false

/-- Places of base sixty with colons between them, at least two. -/
def isSexagesimal (first : List Char → Bool) (cs : List Char) : Bool :=
  match Text.split ':' cs with
  | head :: next :: more => first head && (next :: more).all isSixtieth
  | _ => false

def isInteger (cs : List Char) : Bool :=
  let cs := dropSign cs
  match cs with
  | '0' :: 'b' :: rest => isRun (fun c => c = '0' || c = '1') rest
  | '0' :: 'x' :: rest => isRun isHex rest
  | ['0'] => true
  | '0' :: rest => isRun (fun c => '0' ≤ c && c ≤ '7') rest
  | cs => isCounting cs || isSexagesimal isCounting cs

/-- An exponent has a sign. -/
def isExponent : List Char → Bool
  | [] => true
  | e :: sign :: digits =>
    (e = 'e' || e = 'E') && (sign = '+' || sign = '-') && !digits.isEmpty &&
      digits.all Char.isDigit
  | _ => false

def isFraction (cs : List Char) : Bool :=
  isExponent (cs.dropWhile fun c => c.isDigit || c = '_')

/-- A double with its point: the part before it may be missing, but not with a sign. -/
def isDouble (cs : List Char) : Bool :=
  let unsigned := dropSign cs
  let whole := unsigned.takeWhile (· != '.')
  match unsigned.dropWhile (· != '.') with
  | _ :: after =>
    if whole.isEmpty then
      ["inf", "Inf", "INF"].contains (String.ofList after) ||
        (unsigned.length = cs.length &&
          (["nan", "NaN", "NAN"].contains (String.ofList after) ||
            (after.head?.any Char.isDigit && isFraction after)))
    else
      (isDigits whole && isFraction after) ||
        (isSexagesimal isDigits whole && after.all fun c => c.isDigit || c = '_')
  | [] => false

/-- A text without the line feed at its end, of which the kind takes no notice; a line feed alone is
a text like others. -/
def withoutLineFeed (cs : List Char) : List Char :=
  if 1 < cs.length && cs.getLast? = some '\n' then cs.dropLast else cs

/-- The kind of a plain scalar. -/
def ofText (text : String) : Tag :=
  let cs := withoutLineFeed text.toList
  let text := String.ofList cs
  if flagTexts.contains text then .bool
  else if isDouble cs then .float
  else if isInteger cs then .int
  else if text = "<<" then .merge
  else if nullTexts.contains text then .null
  else if text = "=" then .scalarKey
  else .text

end Tag

end DecisionGate.Yaml
