/-!
Blank characters: the white space of Unicode together with the four information separators.
Trimming and splitting of lists of characters go by them.
-/
namespace DecisionGate.Text

def blanks : List Nat :=
  [0x09, 0x0A, 0x0B, 0x0C, 0x0D, 0x1C, 0x1D, 0x1E, 0x1F, 0x20, 0x85, 0xA0, 0x1680, 0x2000, 0x2001,
   0x2002, 0x2003, 0x2004, 0x2005, 0x2006, 0x2007, 0x2008, 0x2009, 0x200A, 0x2028, 0x2029, 0x202F,
   0x205F, 0x3000]

def isBlank (c : Char) : Bool := blanks.contains c.toNat

/-- The four separators, which are white space to nobody else. -/
def isInformationSeparator (c : Char) : Bool := 0x1C ≤ c.toNat && c.toNat ≤ 0x1F

def isWhiteSpace (c : Char) : Bool := isBlank c && !isInformationSeparator c

/-- Both ends without the characters of a class. -/
def trimBy (p : Char → Bool) (cs : List Char) : List Char :=
  ((cs.dropWhile p).reverse.dropWhile p).reverse

/-- Both ends without blanks. -/
def trim (cs : List Char) : List Char := trimBy isBlank cs

end DecisionGate.Text
