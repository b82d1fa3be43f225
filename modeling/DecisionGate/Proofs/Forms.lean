import DecisionGate.Criteria.Grammar
import DecisionGate.Proofs.Numerals
import DecisionGate.Proofs.Spelling

/-!
# The forms of a criterion

A text is a criterion in one of three forms, and in one only: a subject with a comparator and a
numeral, a subject that is present, and a floor for a subject. A note may follow. A numeral is a
word and begins with no letter, so it is never taken for a keyword. What a form says is the
criterion with its words and the nearest double for its numeral.
-/
namespace DecisionGate

namespace Text

/-- Digits have no small letters, in no script. -/
theorem lower_disjoint_digits :
    ∀ z ∈ digitZeros, ∀ r ∈ CaseTable.lower, r.last < z ∨ z + 10 ≤ r.first := by
  decide +kernel

theorem lowerChar_digit {c : Char} (h : isDigit c = true) : lowerChar c = [c] := by
  obtain ⟨z, d, hmem, -, hrange, -⟩ := exists_zero_of_isDigit h
  have hrow : CaseTable.find? CaseTable.lower c.toNat = none := by
    rw [CaseTable.find?, Option.map_eq_none_iff, List.find?_eq_none]
    intro r hr
    have happart := lower_disjoint_digits z hmem r hr
    simp
    omega
  have hmany : CaseTable.lowerMany.lookup c.toNat = none := by
    have hother : ∀ z ∈ digitZeros, 0x130 < z ∨ z + 10 ≤ 0x130 := by decide
    have hne : (c.toNat == 0x130) = false := by
      have hz := hother z hmem
      rw [beq_eq_false_iff_ne]
      omega
    simp only [CaseTable.lowerMany, List.lookup, hne]
  by_cases hascii : c.toNat < 128
  · have hfirst : ∀ z ∈ digitZeros, z < 128 → z = 0x30 := by decide
    have hzero := hfirst z hmem (by omega)
    exact lowerChar_of_lt (by omega)
  · rw [lowerChar, if_neg hascii, mapCase, hmany, hrow]

end Text

namespace Criteria

open Decimal

/-- A word is a keyword in some case. -/
def IsKeyword (keyword : String) (w : List Char) : Prop := Text.lower w = keyword.toList

/-- A keyword begins with a letter, which no numeral does. -/
theorem not_isKeyword_of_isNumeral {keyword : String} {k : Char} {ks w : List Char}
    (hk : keyword.toList = k :: ks) (hletter : Text.isDigit k = false ∧ k ∉ ['.', '+', '-'])
    (h : isNumeral w = true) : ¬ IsKeyword keyword w := by
  have hhead : ∃ c cs, w = c :: cs ∧ (Text.isDigit c = true ∨ c ∈ ['.', '+', '-']) := by
    obtain ⟨q, hq⟩ := (isNumeral_iff w).mp h
    cases hq with
    | plain hq =>
      obtain ⟨c, cs, hw, hc⟩ := Unsigned.head hq
      exact ⟨c, cs, hw, hc.imp_right fun hc => by simp [hc]⟩
    | plus _ => exact ⟨'+', _, rfl, .inr (by simp)⟩
    | minus _ => exact ⟨'-', _, rfl, .inr (by simp)⟩
  obtain ⟨c, cs, rfl, hc⟩ := hhead
  have hlower : Text.lowerChar c = [c] := by
    rcases hc with hdigit | hsign
    · exact Text.lowerChar_digit hdigit
    · simp only [List.mem_cons, List.not_mem_nil, or_false] at hsign
      rcases hsign with rfl | rfl | rfl <;> decide
  have hsigma : c ≠ 'Σ' := by
    rintro rfl
    revert hc
    decide
  intro hkeyword
  rw [IsKeyword, hk, Text.lower, Text.lowerFrom, if_neg hsigma, hlower] at hkeyword
  obtain ⟨rfl, -⟩ := List.cons.inj hkeyword
  rcases hc with hdigit | hsign
  · exact absurd (hletter.1.symm.trans hdigit) nofun
  · exact hletter.2 hsign

namespace Lexeme

variable {l : Lexeme} {w : List Char}

theorem isSubject_iff : l.isSubject = true ↔ ∃ w, l.piece = .word w := by
  cases hk : l.kind <;> simp [isSubject, piece, hk]

theorem text_of_piece (h : l.piece = .word w) : l.text = w := by
  cases hk : l.kind <;> simp_all [piece]

theorem isComparator_iff : l.isComparator = true ↔ ∃ operator, l.piece = .comparator operator := by
  cases hk : l.kind <;> simp [isComparator, piece, hk]

theorem isNote_iff : l.kind = .note ↔ l.piece = .note := by
  cases hk : l.kind <;> simp [piece, hk]

theorem isNumber_iff (hsorted : l.IsSorted) :
    l.isNumber = true ↔ l.piece = .word l.text ∧ isNumeral l.text = true := by
  cases hk : l.kind <;> simp_all [isNumber, piece, IsSorted]

/-- No lexeme is taken for a numeral when its text is a keyword. -/
theorem isWord_iff (hsorted : l.IsSorted) {keyword : String} {k : Char} {ks : List Char}
    (hk : keyword.toList = k :: ks) (hletter : Text.isDigit k = false ∧ k ∉ ['.', '+', '-']) :
    l.isWord keyword = true ↔ l.piece = .word l.text ∧ IsKeyword keyword l.text := by
  cases hkind : l.kind with
  | number =>
    have hnumeral : isNumeral l.text = true := by simpa [IsSorted, hkind] using hsorted
    simp [isWord, piece, hkind, not_isKeyword_of_isNumeral hk hletter hnumeral]
  | _ => simp [isWord, piece, hkind, IsKeyword]

end Lexeme

/-- What a criterion says: its words and its numeral as they are written. -/
inductive Form where
  | comparison (subject : List (List Char)) (operator : Operator) (numeral : List Char)
  | presence (subject : List (List Char))
  | floor (subject : List (List Char)) (numeral : List Char)

namespace Form

/-- Pieces in the order of a form. A numeral is a word, so a subject may hold numerals; it may also
hold keywords, where they do not stand for the keyword. -/
inductive Says : Form → List Piece → Prop
  | comparison {subject : List (List Char)} {operator : Operator} {numeral : List Char} :
      subject ≠ [] → (∀ w, subject.head? = some w → ¬ IsKeyword "no" w) →
      (∃ q, Denotes numeral q) →
      Says (.comparison subject operator numeral)
        (subject.map .word ++ [.comparator operator, .word numeral])
  | presence {subject : List (List Char)} {present : List Char} :
      subject ≠ [] → (∀ w, subject.head? = some w → ¬ IsKeyword "no" w) →
      IsKeyword "present" present →
      Says (.presence subject) (subject.map .word ++ [.word present])
  | floor {no below numeral : List Char} {subject : List (List Char)} :
      IsKeyword "no" no → subject ≠ [] → (∀ w ∈ subject, ¬ IsKeyword "below" w) →
      IsKeyword "below" below → (∃ q, Denotes numeral q) →
      Says (.floor subject numeral)
        (.word no :: (subject.map .word ++ [.word below, .word numeral]))

def subject : Form → List (List Char)
  | .comparison subject _ _ => subject
  | .presence subject => subject
  | .floor subject _ => subject

def operator : Form → Operator
  | .comparison _ operator _ => operator
  | .presence _ => .present
  | .floor _ _ => .ge

def kind : Form → Kind
  | .comparison _ _ _ => .comparison
  | .presence _ => .presence
  | .floor _ _ => .floor

def numeral? : Form → Option (List Char)
  | .comparison _ _ numeral => some numeral
  | .presence _ => none
  | .floor _ numeral => some numeral

end Form

/-- A text has a form if the pieces that it is spelled with are in its order, with at most one note
after them. -/
def Reads (text : String) (f : Form) : Prop :=
  ∃ ps, f.Says ps ∧ (Spells ps text.toList [] ∨ Spells (ps ++ [.note]) text.toList [])

/-- A criterion is what a text in a form says. -/
structure Matches (label : String) (f : Form) (c : Criterion) : Prop where
  kind : c.kind = f.kind
  operator : c.operator = f.operator
  threshold : match f.numeral? with
    | some numeral => ∃ x, c.threshold = some x ∧ ∀ q, Denotes numeral q → Exact.Nearest q x
    | none => c.threshold = none
  label : c.label = label
  field : c.field = toSnake (" ".intercalate (f.subject.map String.ofList))

theorem map_word_inj {ws ws' : List (List Char)} {tail tail' : List Piece}
    (h : ws.map Piece.word ++ tail = ws'.map .word ++ tail')
    (hlength : tail.length = tail'.length) : ws = ws' ∧ tail = tail' := by
  obtain ⟨hmap, htail⟩ := List.append_inj' h hlength
  have hinj : Function.Injective Piece.word := fun _ _ => Piece.word.inj
  exact ⟨List.map_injective_iff.mpr hinj hmap, htail⟩

/-- A subject does not begin with the keyword that a floor begins with. -/
theorem not_floor_of_head {subject : List (List Char)} {tail rest : List Piece} {no : List Char}
    (hne : subject ≠ []) (hsubject : ∀ w, subject.head? = some w → ¬ IsKeyword "no" w)
    (hno : IsKeyword "no" no) : subject.map Piece.word ++ tail ≠ .word no :: rest := by
  intro h
  obtain ⟨w, ws, rfl⟩ := List.exists_cons_of_ne_nil hne
  obtain ⟨hword, -⟩ := List.cons.inj h
  obtain rfl := Piece.word.inj hword
  exact hsubject w rfl hno

theorem not_presence_of_comparator {subject subject' : List (List Char)} {operator : Operator}
    {numeral present : List Char} :
    subject.map Piece.word ++ [.comparator operator, .word numeral] ≠
      subject'.map .word ++ [.word present] := by
  intro h
  have hmem : Piece.comparator operator ∈ subject'.map Piece.word ++ [.word present] := by
    rw [← h]
    simp
  simp at hmem

theorem Form.Says.unique {f g : Form} {ps : List Piece} (hf : f.Says ps) (hg : g.Says ps) :
    f = g := by
  obtain ⟨qs, hqs⟩ : ∃ qs, qs = ps := ⟨_, rfl⟩
  rw [← hqs] at hg
  cases hf with
  | comparison hne hsubject _ =>
    cases hg with
    | comparison _ _ _ =>
      obtain ⟨rfl, htail⟩ := map_word_inj hqs rfl
      obtain ⟨rfl, rfl⟩ : _ ∧ _ := by simpa using htail
      rfl
    | presence _ _ _ => exact absurd hqs.symm not_presence_of_comparator
    | floor hno _ _ _ _ => exact absurd hqs.symm (not_floor_of_head hne hsubject hno)
  | presence hne hsubject _ =>
    cases hg with
    | comparison _ _ _ => exact absurd hqs not_presence_of_comparator
    | presence _ _ _ =>
      obtain ⟨rfl, -⟩ := map_word_inj hqs rfl
      rfl
    | floor hno _ _ _ _ => exact absurd hqs.symm (not_floor_of_head hne hsubject hno)
  | floor hno _ _ _ _ =>
    cases hg with
    | comparison hne hsubject _ => exact absurd hqs (not_floor_of_head hne hsubject hno)
    | presence hne hsubject _ => exact absurd hqs (not_floor_of_head hne hsubject hno)
    | floor _ _ _ _ _ =>
      obtain ⟨-, hrest⟩ := List.cons.inj hqs
      obtain ⟨rfl, htail⟩ := map_word_inj hrest rfl
      obtain ⟨-, rfl⟩ : _ ∧ _ := by simpa using htail
      rfl

theorem Form.Says.note_not_mem {f : Form} {ps : List Piece} (h : f.Says ps) : .note ∉ ps := by
  cases h <;> simp

/-- No text has two forms. -/
theorem Reads.unique {text : String} {f g : Form} (hf : Reads text f) (hg : Reads text g) :
    f = g := by
  obtain ⟨ps, hps, hspells⟩ := hf
  obtain ⟨qs, hqs, hspells'⟩ := hg
  have hclash {ps qs : List Piece} {f : Form} (hps : f.Says ps) (h : ps = qs ++ [.note]) : False :=
    hps.note_not_mem (by rw [h]; simp)
  have hsame : ps = qs := by
    rcases hspells with h | h <;> rcases hspells' with h' | h'
    · exact h.unique h'
    · exact (hclash hps (h.unique h')).elim
    · exact (hclash hqs (h'.unique h)).elim
    · exact List.append_cancel_right (h.unique h')
  exact hps.unique (hsame ▸ hqs)

end Criteria

end DecisionGate
