import DecisionGate.Criteria.Lexeme
import DecisionGate.Criteria.Snake

/-!
The text form of criteria. There are three forms, each with at most one note at its end:

* a comparison, `subject comparator numeral`;
* a presence, `subject present`;
* a floor, `no subject below numeral`.

A subject is one or more words; the words `no`, `present` and `below` are recognised in any case.
-/
namespace DecisionGate.Criteria

def Lexeme.isWord (l : Lexeme) (word : String) : Bool :=
  l.kind = .word && Text.lower l.text == word.toList

def Lexeme.isNumber (l : Lexeme) : Bool := l.kind = .number

def Lexeme.isSubject (l : Lexeme) : Bool := l.kind = .word || l.kind = .number

def Lexeme.isComparator (l : Lexeme) : Bool :=
  match l.kind with
  | .comparator _ => true
  | _ => false

def Lexeme.value (l : Lexeme) : Float :=
  (Decimal.readDouble? (String.ofList l.text)).getD 0.0

/-- The name of the field that the words of a subject stand for. -/
def subjectField (words : List Lexeme) : String :=
  toSnake (" ".intercalate (words.map fun l => String.ofList l.text))

/-- Where a list of lexemes begins, or the end of the text. -/
def positionOf (ending : Nat) : List Lexeme → Nat
  | [] => ending
  | l :: _ => l.position

/-- The numeral that has to come next, with nothing after it. -/
def lastNumber (ending : Nat) (missing : Reason) : List Lexeme → Except Stop Float
  | l :: rest =>
    if l.isNumber then
      match rest with
      | [] => .ok l.value
      | extra :: _ => .error ⟨extra.position, .textAfterNumber⟩
    else .error ⟨l.position, missing⟩
  | [] => .error ⟨ending, missing⟩

/-- The subject of a floor, up to `below`, and what follows it. -/
def floorSubject : List Lexeme → Except Stop (List Lexeme × List Lexeme)
  | [] => .ok ([], [])
  | l :: rest =>
    if l.isWord "below" then .ok ([], l :: rest)
    else if l.isComparator then .error ⟨l.position, .belowNotComparator⟩
    else do
      let (subject, after) ← floorSubject rest
      .ok (l :: subject, after)

/-- A floor, from what follows `no`. -/
def parseFloor (ending : Nat) (label : String) (ls : List Lexeme) : Except Stop Criterion := do
  let (subject, after) ← floorSubject ls
  if subject.isEmpty then .error ⟨positionOf ending after, .subjectAfterNo⟩
  else
    match after with
    | [] => .error ⟨ending, .belowExpected⟩
    | _ :: rest => do
      let threshold ← lastNumber ending .numberAfterBelow rest
      .ok (.make (subjectField subject) .ge (some threshold) label .floor)

/-- A presence or a comparison. -/
def parseOther (ending : Nat) (label : String) (ls : List Lexeme) : Except Stop Criterion :=
  let subject := ls.takeWhile Lexeme.isSubject
  if subject.isEmpty then .error ⟨positionOf ending ls, .subjectExpected⟩
  else
    match ls.dropWhile Lexeme.isSubject with
    | [] =>
      match subject.reverse with
      | last :: first :: before =>
        if Text.lower last.text == "present".toList then
          .ok (.make (subjectField (first :: before).reverse) .present none label .presence)
        else .error ⟨ending, .comparatorExpected⟩
      | _ => .error ⟨ending, .comparatorExpected⟩
    | l :: rest =>
      match l.kind with
      | .comparator operator => do
        let threshold ← lastNumber ending (.numberAfter (String.ofList l.text)) rest
        .ok (.make (subjectField subject) operator (some threshold) label .comparison)
      | _ => .error ⟨l.position, .noteNotLast⟩

/-- The lexemes without a note at their end. -/
def dropNote (ls : List Lexeme) : List Lexeme :=
  match ls.getLast? with
  | some l => if l.kind = .note then ls.dropLast else ls
  | none => ls

def parseLexemes (ending : Nat) (label : String) (ls : List Lexeme) : Except Stop Criterion :=
  let ls := dropNote ls
  match ls.find? fun l => l.kind = .note with
  | some l => .error ⟨l.position, .noteNotLast⟩
  | none =>
    match ls with
    | [] => .error ⟨0, .subjectExpected⟩
    | first :: rest =>
      if first.isWord "no" then parseFloor ending label rest
      else parseOther ending label (first :: rest)

/-- Reads one criterion. -/
def parse (text : String) : Except Problem Criterion :=
  let cs := text.toList
  let label := String.ofList (Text.trim cs)
  match lexemes cs >>= parseLexemes cs.length label with
  | .ok c => .ok c
  | .error stop => .error ⟨text, stop.position, stop.reason⟩

/-- An entry of a list of criteria. -/
inductive Item where
  | criterion (c : Criterion)
  | value (v : Value)

def Item.parse : Item → Except Problem Criterion
  | .criterion c => .ok c
  | .value (.str s) => Criteria.parse s
  | .value (.map es) =>
    (Criterion.ofValue (.map es)).mapError fun ps =>
      ⟨(Value.map es).text, 0, .schema ps⟩
  | .value v => .error ⟨v.quoted, 0, .notACriterion⟩

/-- Whether an entry can be read, or at least shown as what cannot be read. -/
def Item.isReportable (i : Item) : Bool :=
  match i, i.parse with
  | .value v, .error _ => v.hasText
  | _, _ => true

/-- Reads all entries, and reports every one that cannot be read. -/
def parseAll (items : List Item) : Except (List Problem) (List Criterion) :=
  let results := items.map Item.parse
  let problems := results.filterMap fun r => match r with
    | .error p => some p
    | .ok _ => none
  if problems.isEmpty then
    .ok (results.filterMap fun r => match r with
      | .ok c => some c
      | .error _ => none)
  else .error problems

end DecisionGate.Criteria
