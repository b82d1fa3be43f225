import DecisionGate.Text.CaseTable

/-!
Changing the case of a text, with every rule of Unicode 14 that needs no language: letters that map
to several, letters that open a word differently, and the sigma that ends a word.
-/
namespace DecisionGate.Text

/-- The image of one character by a pair of tables. -/
def mapCase (rows : List CaseTable.Row) (many : List (Nat × List Nat)) (c : Char) : List Char :=
  match many.lookup c.toNat with
  | some ns => ns.map Char.ofNat
  | none =>
    match CaseTable.find? rows c.toNat with
    | some n => [Char.ofNat n]
    | none => [c]

def within (ranges : List (Nat × Nat)) (c : Char) : Bool :=
  ranges.any fun r => r.1 ≤ c.toNat && c.toNat ≤ r.2

def upperChar (c : Char) : List Char :=
  if c.toNat < 128 then [c.toUpper] else mapCase CaseTable.upper CaseTable.upperMany c

def titleChar (c : Char) : List Char :=
  if c.toNat < 128 then [c.toUpper] else mapCase CaseTable.title CaseTable.titleMany c

/-- The small form of a character on its own. -/
def lowerChar (c : Char) : List Char :=
  if c.toNat < 128 then [c.toLower] else mapCase CaseTable.lower CaseTable.lowerMany c

/-- In front of the capital letters no character has another small form. -/
theorem lowerChar_of_lt {c : Char} (h : c.toNat < 65) : lowerChar c = [c] := by
  have hcapital : ¬ (65 ≤ c.toNat ∧ c.toNat ≤ 90) := by omega
  have hsame : c.toLower = c := dif_neg hcapital
  rw [lowerChar, if_pos (by omega), hsame]

/-- Whether the nearest character that is no mark has case. -/
def nextIsCased (cs : List Char) : Bool :=
  match cs.dropWhile (within CaseTable.ignorable) with
  | [] => false
  | c :: _ => within CaseTable.cased c

/-- Small letters of a text whose characters before it are given in reverse. A capital sigma after
a letter and before none takes its final form. -/
def lowerFrom (before : List Char) : List Char → List Char
  | [] => []
  | c :: rest =>
    (if c = 'Σ' then
      (if nextIsCased before && !nextIsCased rest then ['ς'] else ['σ'])
     else lowerChar c) ++ lowerFrom (c :: before) rest

def lower (cs : List Char) : List Char := lowerFrom [] cs

def upper (cs : List Char) : List Char := cs.flatMap upperChar

/-- The first letter as it opens a word, the others small. -/
def capitalize : List Char → List Char
  | [] => []
  | c :: rest => titleChar c ++ lowerFrom [c] rest

end DecisionGate.Text
