import DecisionGate.Criteria.Criterion
import DecisionGate.Text.Lines

/-!
The lexemes of a criterion's text: words, numerals, comparators and notes in parentheses, each with
its place. Blanks separate lexemes and mean nothing else.
-/
namespace DecisionGate.Criteria

inductive Lexeme.Kind where
  | word
  | number
  | comparator (operator : Operator)
  | note
  deriving DecidableEq, Repr

structure Lexeme where
  kind : Lexeme.Kind
  text : List Char
  position : Nat
  deriving DecidableEq, Repr

/-- Where reading stops, and why. -/
structure Stop where
  position : Nat
  reason : Reason

def isComparatorChar (c : Char) : Bool := ['≥', '≤', '<', '>', '='].contains c

def isParenthesis (c : Char) : Bool := c = '(' || c = ')'

/-- Characters of words and numerals. -/
def isWordChar (c : Char) : Bool :=
  !Text.isBlank c && !isComparatorChar c && !isParenthesis c

/-- The comparator at the start of a text, the longer of two, and its length. -/
def comparator? : List Char → Option (Operator × Nat)
  | '>' :: '=' :: _ => some (.ge, 2)
  | '<' :: '=' :: _ => some (.le, 2)
  | '=' :: '=' :: _ => some (.eq, 2)
  | '≥' :: _ => some (.ge, 1)
  | '≤' :: _ => some (.le, 1)
  | '>' :: _ => some (.gt, 1)
  | '<' :: _ => some (.lt, 1)
  | '=' :: _ => some (.eq, 1)
  | _ => none

/-- `[sign] (digits [. [digits]] | . digits)`, with digits of any script. -/
def isNumeral (cs : List Char) : Bool :=
  let body := match cs with
    | '+' :: rest => rest
    | '-' :: rest => rest
    | rest => rest
  let whole := body.takeWhile Text.isDigit
  match body.dropWhile Text.isDigit with
  | [] => !whole.isEmpty
  | '.' :: fraction =>
    (!whole.isEmpty || !fraction.isEmpty) && fraction.all Text.isDigit
  | _ => false

/-- The lexemes of a text that starts at a place; every step takes at least one character. -/
def lexemesFrom : Nat → Nat → List Char → Except Stop (List Lexeme)
  | 0, _, _ => .ok []
  | _, _, [] => .ok []
  | fuel + 1, position, c :: rest =>
    if Text.isBlank c then lexemesFrom fuel (position + 1) rest
    else if c = '(' then
      let inside := rest.takeWhile (· != ')')
      if inside.length = rest.length then .error ⟨position, .unterminatedNote⟩
      else do
        let more ← lexemesFrom fuel (position + inside.length + 2) (rest.drop (inside.length + 1))
        .ok (⟨.note, Text.trim inside, position⟩ :: more)
    else if c = ')' then .error ⟨position, .strayParenthesis⟩
    else
      match comparator? (c :: rest) with
      | some (operator, n) => do
        let more ← lexemesFrom fuel (position + n) (rest.drop (n - 1))
        .ok (⟨.comparator operator, (c :: rest).take n, position⟩ :: more)
      | none =>
        let chunk := (c :: rest).takeWhile isWordChar
        let kind := if isNumeral chunk then .number else .word
        do
          let more ← lexemesFrom fuel (position + chunk.length) ((c :: rest).drop chunk.length)
          .ok (⟨kind, chunk, position⟩ :: more)

def lexemes (cs : List Char) : Except Stop (List Lexeme) := lexemesFrom cs.length 0 cs

end DecisionGate.Criteria
