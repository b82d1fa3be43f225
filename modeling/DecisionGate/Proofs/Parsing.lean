import DecisionGate.Proofs.Forms

/-!
# Reading criteria

A text in a form is read as the criterion that its form says, and no other text is read. For every
other text there is one problem, at a place where something begins or at an end of the text.
-/
namespace DecisionGate.Criteria

open Decimal

variable {ending : Nat} {label : String} {ls : List Lexeme}

theorem lastNumber_of_numeral (ending : Nat) (missing : Reason) {l : Lexeme} (hsorted : l.IsSorted)
    {numeral : List Char} (hl : l.piece = .word numeral) {q : ℚ} (hq : Denotes numeral q) :
    ∃ x, lastNumber ending missing [l] = .ok x ∧ ∀ q, Denotes numeral q → Exact.Nearest q x := by
  obtain rfl := l.text_of_piece hl
  have hnumber : l.isNumber = true :=
    (Lexeme.isNumber_iff hsorted).mpr ⟨hl, (isNumeral_iff _).mpr ⟨q, hq⟩⟩
  obtain ⟨x, hx, -⟩ := hq.nearest
  have hvalue : l.value = x := by rw [Lexeme.value, hx, Option.getD_some]
  refine ⟨x, by rw [lastNumber, if_pos hnumber, hvalue], fun q' hq' => ?_⟩
  obtain ⟨y, hy, hnearest⟩ := hq'.nearest
  obtain rfl := Option.some.inj (hx.symm.trans hy)
  exact hnearest

/-- Lexemes that are the words of a subject. -/
theorem map_text_of_map_piece {words : List (List Char)}
    (h : ls.map Lexeme.piece = words.map .word) :
    ls.map Lexeme.text = words ∧ ∀ l ∈ ls, l.isSubject = true := by
  induction ls generalizing words with
  | nil =>
    obtain rfl := List.map_eq_nil_iff.mp h.symm
    exact ⟨rfl, nofun⟩
  | cons l ls ih =>
    cases words with
    | nil => simp at h
    | cons w words =>
      rw [List.map_cons, List.map_cons] at h
      obtain ⟨hl, hls⟩ := List.cons.inj h
      obtain ⟨htexts, hall⟩ := ih hls
      refine ⟨by rw [List.map_cons, l.text_of_piece hl, htexts], ?_⟩
      intro l' hl'
      rcases List.mem_cons.mp hl' with rfl | hl'
      · exact Lexeme.isSubject_iff.mpr ⟨w, hl⟩
      · exact hall l' hl'

theorem subjectField_of_words {words : List (List Char)} (h : ls.map Lexeme.text = words) :
    subjectField ls = toSnake (" ".intercalate (words.map String.ofList)) := by
  rw [subjectField, ← h, List.map_map]
  rfl

/-- With a label of its own a criterion is made as its form says. -/
theorem matches_make {f : Form} (hlabel : label.isEmpty = false) {words : List Lexeme}
    (hwords : words.map Lexeme.text = f.subject) {threshold : Option Float}
    (hthreshold : match f.numeral? with
      | some numeral => ∃ x, threshold = some x ∧ ∀ q, Denotes numeral q → Exact.Nearest q x
      | none => threshold = none)
    (hkind : f.operator = .present → f.kind = .presence) :
    Matches label f (.make (subjectField words) f.operator threshold label f.kind) := by
  have hmake : Criterion.make (subjectField words) f.operator threshold label f.kind =
      { field := subjectField words, operator := f.operator, threshold, label,
        kind := if f.operator = .present then .presence else f.kind } := by
    simp [Criterion.make, hlabel]
  rw [hmake]
  refine
    { kind := ?_
      operator := rfl
      threshold := hthreshold
      label := rfl
      field := subjectField_of_words hwords }
  by_cases hpresent : f.operator = .present
  · exact (if_pos hpresent).trans (hkind hpresent).symm
  · exact if_neg hpresent

/-- The words up to `below` are the subject of a floor. -/
theorem floorSubject_append {subject rest : List Lexeme}
    (hsubject : ∀ l ∈ subject, l.isSubject = true ∧ l.isWord "below" = false) {l : Lexeme}
    (hl : l.isWord "below" = true) :
    floorSubject (subject ++ l :: rest) = .ok (subject, l :: rest) := by
  induction subject with
  | nil => rw [List.nil_append, floorSubject, if_pos hl]
  | cons first subject ih =>
    obtain ⟨hfirst, hno⟩ := hsubject first List.mem_cons_self
    have hcomparator : first.isComparator = false := by
      obtain ⟨w, hw⟩ := Lexeme.isSubject_iff.mp hfirst
      rw [Bool.eq_false_iff]
      intro hcomparator
      obtain ⟨operator, ho⟩ := Lexeme.isComparator_iff.mp hcomparator
      exact absurd (hw.symm.trans ho) nofun
    have hrest := ih fun l hl => hsubject l (List.mem_cons_of_mem first hl)
    rw [List.cons_append, floorSubject, if_neg (by simp [hno]), if_neg (by simp [hcomparator]),
      hrest]
    rfl

section
variable (hlabel : label.isEmpty = false) (hsorted : ∀ l ∈ ls, l.IsSorted)
include hlabel hsorted

theorem parseOther_comparison {subject : List (List Char)} {operator : Operator}
    {numeral : List Char} (hne : subject ≠ []) {q : ℚ} (hq : Denotes numeral q)
    (hoperator : operator ≠ .present)
    (h : ls.map Lexeme.piece = subject.map .word ++ [.comparator operator, .word numeral]) :
    ∃ c, parseOther ending label ls = .ok c ∧
      Matches label (.comparison subject operator numeral) c := by
  obtain ⟨words, tail, rfl, hwords, htail⟩ := List.map_eq_append_iff.mp h
  obtain ⟨l, tail, rfl, hl, htail⟩ := List.map_eq_cons_iff.mp htail
  obtain ⟨last, rfl, hlast⟩ := List.map_eq_singleton_iff.mp htail
  obtain ⟨htexts, hall⟩ := map_text_of_map_piece hwords
  have hstop : l.isSubject = false := by
    rw [Bool.eq_false_iff]
    intro hsubject
    obtain ⟨w, hw⟩ := Lexeme.isSubject_iff.mp hsubject
    exact absurd (hl.symm.trans hw) nofun
  obtain ⟨htake, hdrop⟩ := takeWhile_dropWhile_append hall hstop [last]
  have hnonempty : words.isEmpty = false := by
    rw [Bool.eq_false_iff]
    intro hempty
    rw [List.isEmpty_iff.mp hempty] at htexts
    exact hne htexts.symm
  have hkind : l.kind = .comparator operator := by
    cases hk : l.kind <;> simp_all [Lexeme.piece]
  obtain ⟨x, hx, hnearest⟩ := lastNumber_of_numeral ending (.numberAfter (String.ofList l.text))
    (hsorted last (by simp)) hlast hq
  refine ⟨.make (subjectField words) operator (some x) label .comparison, ?_, ?_⟩
  · unfold parseOther
    simp only [htake, hdrop, hnonempty, hkind, hx, Bool.false_eq_true, if_false, ok_bind]
  · exact matches_make (f := .comparison subject operator numeral) hlabel htexts
      ⟨x, rfl, hnearest⟩ fun h => absurd h hoperator

theorem parseOther_presence {subject : List (List Char)} {present : List Char}
    (hne : subject ≠ []) (hpresent : IsKeyword "present" present)
    (h : ls.map Lexeme.piece = subject.map .word ++ [.word present]) :
    ∃ c, parseOther ending label ls = .ok c ∧ Matches label (.presence subject) c := by
  obtain ⟨words, tail, rfl, hwords, htail⟩ := List.map_eq_append_iff.mp h
  obtain ⟨last, rfl, hlast⟩ := List.map_eq_singleton_iff.mp htail
  obtain ⟨htexts, hall⟩ := map_text_of_map_piece hwords
  have hall' : ∀ l ∈ words ++ [last], l.isSubject = true := by
    intro l hl
    rcases List.mem_append.mp hl with hl | hl
    · exact hall l hl
    · rw [List.mem_singleton.mp hl]
      exact Lexeme.isSubject_iff.mpr ⟨present, hlast⟩
  have htake := List.takeWhile_eq_self_iff.mpr hall'
  have hdrop := List.dropWhile_eq_nil_iff.mpr hall'
  have hnonempty : (words ++ [last]).isEmpty = false := by simp
  obtain ⟨first, before, hreverse⟩ : ∃ first before, words.reverse = first :: before := by
    refine List.exists_cons_of_ne_nil fun hnil => hne ?_
    rw [← htexts, List.reverse_eq_nil_iff.mp hnil]
    rfl
  have hwhole : (words ++ [last]).reverse = last :: first :: before := by simp [hreverse]
  have hback : (first :: before).reverse = words := by rw [← hreverse, List.reverse_reverse]
  have hkeyword : (Text.lower last.text == "present".toList) = true := by
    rw [last.text_of_piece hlast]
    exact beq_iff_eq.mpr hpresent
  refine ⟨.make (subjectField words) .present none label .presence, ?_, ?_⟩
  · unfold parseOther
    simp only [htake, hdrop, hnonempty, hwhole, hback, hkeyword, Bool.false_eq_true, if_false,
      if_true]
  · exact matches_make (f := .presence subject) hlabel htexts rfl fun _ => rfl

theorem parseFloor_floor {subject : List (List Char)} {below numeral : List Char}
    (hne : subject ≠ []) (hno : ∀ w ∈ subject, ¬ IsKeyword "below" w)
    (hbelow : IsKeyword "below" below) {q : ℚ} (hq : Denotes numeral q)
    (h : ls.map Lexeme.piece = subject.map .word ++ [.word below, .word numeral]) :
    ∃ c, parseFloor ending label ls = .ok c ∧ Matches label (.floor subject numeral) c := by
  obtain ⟨words, tail, rfl, hwords, htail⟩ := List.map_eq_append_iff.mp h
  obtain ⟨l, tail, rfl, hl, htail⟩ := List.map_eq_cons_iff.mp htail
  obtain ⟨last, rfl, hlast⟩ := List.map_eq_singleton_iff.mp htail
  obtain ⟨htexts, hall⟩ := map_text_of_map_piece hwords
  have hfloor : floorSubject (words ++ [l, last]) = .ok (words, [l, last]) := by
    apply floorSubject_append
    · intro w hw
      refine ⟨hall w hw, Bool.eq_false_iff.mpr fun hword => ?_⟩
      have hkeyword := (Lexeme.isWord_iff (hsorted w (by simp [hw])) rfl (by decide)).mp hword
      refine hno w.text ?_ hkeyword.2
      rw [← htexts]
      exact List.mem_map_of_mem hw
    · refine (Lexeme.isWord_iff (hsorted l (by simp)) rfl (by decide)).mpr ?_
      rw [l.text_of_piece hl]
      exact ⟨hl, hbelow⟩
  have hnonempty : words.isEmpty = false := by
    rw [Bool.eq_false_iff]
    intro hempty
    rw [List.isEmpty_iff.mp hempty] at htexts
    exact hne htexts.symm
  obtain ⟨x, hx, hnearest⟩ := lastNumber_of_numeral ending .numberAfterBelow
    (hsorted last (by simp)) hlast hq
  refine ⟨.make (subjectField words) .ge (some x) label .floor, ?_, ?_⟩
  · unfold parseFloor
    simp only [hfloor, hnonempty, hx, Bool.false_eq_true, if_false, ok_bind]
  · exact matches_make (f := .floor subject numeral) hlabel htexts ⟨x, rfl, hnearest⟩ nofun

end

/-- One note at the end of a text is left out. -/
theorem dropNote_of_pieces {ps : List Piece} (hnote : .note ∉ ps)
    (h : ls.map Lexeme.piece = ps ∨ ls.map Lexeme.piece = ps ++ [.note]) :
    (dropNote ls).map Lexeme.piece = ps := by
  rcases h with h | h
  · have hsame : dropNote ls = ls := by
      unfold dropNote
      split
      · next l hl =>
        have hmem := List.mem_of_getLast? hl
        refine if_neg fun hk => hnote ?_
        rw [← h, ← Lexeme.isNote_iff.mp hk]
        exact List.mem_map_of_mem hmem
      · rfl
    rw [hsame, h]
  · obtain ⟨front, last, rfl, hfront, hlast⟩ := List.map_eq_append_iff.mp h
    obtain ⟨note, rfl, hnote⟩ := List.map_eq_singleton_iff.mp hlast
    have hkind : note.kind = .note := Lexeme.isNote_iff.mpr hnote
    have hdropped : dropNote (front ++ [note]) = front := by
      simp [dropNote, hkind]
    rw [hdropped, hfront]

theorem mem_of_mem_dropNote {l : Lexeme} (h : l ∈ dropNote ls) : l ∈ ls := by
  unfold dropNote at h
  split at h
  · split at h
    · exact List.mem_of_mem_dropLast h
    · exact h
  · exact h

/-- What is left out is one note at most. -/
theorem pieces_of_dropNote (ls : List Lexeme) :
    ls.map Lexeme.piece = (dropNote ls).map Lexeme.piece ∨
      ls.map Lexeme.piece = (dropNote ls).map Lexeme.piece ++ [.note] := by
  unfold dropNote
  split
  · next l hl =>
    split
    · next hk =>
      have hparts : ls.dropLast ++ [l] = ls := List.dropLast_append_getLast? l hl
      refine .inr ?_
      rw [← Lexeme.isNote_iff.mp hk, ← List.map_singleton, ← List.map_append, hparts]
    · exact .inl rfl
  · exact .inl rfl

theorem find?_note_eq_none : (ls.find? fun l => l.kind = .note) = none ↔
    .note ∉ ls.map Lexeme.piece := by
  rw [List.find?_eq_none]
  simp only [decide_eq_true_eq, List.mem_map, not_exists, not_and]
  exact forall₂_congr fun l _ => not_congr Lexeme.isNote_iff

/-- Lexemes that begin with a subject begin with the keyword of a floor if the subject does. -/
theorem isWord_head_iff {first : Lexeme} {rest : List Lexeme} (hsorted : first.IsSorted)
    {subject : List (List Char)} (hne : subject ≠ []) {tail : List Piece}
    (h : (first :: rest).map Lexeme.piece = subject.map .word ++ tail) :
    first.isWord "no" = true ↔ ∃ w, subject.head? = some w ∧ IsKeyword "no" w := by
  obtain ⟨w, ws, rfl⟩ := List.exists_cons_of_ne_nil hne
  obtain ⟨hl, -⟩ := List.cons.inj h
  rw [Lexeme.isWord_iff hsorted rfl (by decide), first.text_of_piece hl]
  simp [hl]

theorem parseLexemes_of_says (hlabel : label.isEmpty = false) (hsorted : ∀ l ∈ ls, l.IsSorted)
    (hoperators : ∀ operator, .comparator operator ∈ ls.map Lexeme.piece → operator ≠ .present)
    {f : Form} {ps : List Piece} (h : f.Says ps)
    (hps : ls.map Lexeme.piece = ps ∨ ls.map Lexeme.piece = ps ++ [.note]) :
    ∃ c, parseLexemes ending label ls = .ok c ∧ Matches label f c := by
  have hpieces := dropNote_of_pieces h.note_not_mem hps
  have hsorted' : ∀ l ∈ dropNote ls, l.IsSorted := fun l hl => hsorted l (mem_of_mem_dropNote hl)
  have hnote : ((dropNote ls).find? fun l => l.kind = .note) = none := by
    rw [find?_note_eq_none, hpieces]
    exact h.note_not_mem
  have hoperators' : ∀ operator, .comparator operator ∈ ps → operator ≠ .present := by
    intro operator hmem
    apply hoperators
    rcases hps with hps | hps <;> simp [hps, hmem]
  unfold parseLexemes
  generalize dropNote ls = ls at hpieces hsorted' hnote
  simp only [hnote]
  cases hls : ls with
  | nil =>
    rw [hls] at hpieces
    cases h <;> simp at hpieces
  | cons first rest =>
    rw [hls] at hpieces hsorted'
    have hfirst := hsorted' first List.mem_cons_self
    have hother {subject : List (List Char)} {tail : List Piece} (hne : subject ≠ [])
        (hsubject : ∀ w, subject.head? = some w → ¬ IsKeyword "no" w)
        (hpieces : (first :: rest).map Lexeme.piece = subject.map .word ++ tail) :
        first.isWord "no" = false := by
      rw [Bool.eq_false_iff]
      intro hword
      obtain ⟨w, hw, hkeyword⟩ := (isWord_head_iff hfirst hne hpieces).mp hword
      exact hsubject w hw hkeyword
    cases h with
    | comparison hne hsubject hnumeral =>
      obtain ⟨q, hq⟩ := hnumeral
      have hoperator := hoperators' _ (List.mem_append_right _ List.mem_cons_self)
      simp only [hother hne hsubject hpieces, Bool.false_eq_true, if_false]
      exact parseOther_comparison hlabel hsorted' hne hq hoperator hpieces
    | presence hne hsubject hpresent =>
      simp only [hother hne hsubject hpieces, Bool.false_eq_true, if_false]
      exact parseOther_presence hlabel hsorted' hne hpresent hpieces
    | floor hno hne hsubject hbelow hnumeral =>
      obtain ⟨hl, hrest⟩ := List.cons.inj hpieces
      obtain ⟨q, hq⟩ := hnumeral
      have hword : first.isWord "no" = true := by
        rw [Lexeme.isWord_iff hfirst rfl (by decide), first.text_of_piece hl]
        exact ⟨hl, hno⟩
      have hsorted'' : ∀ l ∈ rest, l.IsSorted :=
        fun l hl => hsorted' l (List.mem_cons_of_mem first hl)
      simp only [hword, if_true]
      exact parseFloor_floor hlabel hsorted'' hne hsubject hbelow hq hrest

/-- Lexemes that are all words. -/
theorem map_piece_of_subject {ls : List Lexeme} (h : ∀ l ∈ ls, l.isSubject = true) :
    ls.map Lexeme.piece = (ls.map Lexeme.text).map .word := by
  rw [List.map_map]
  refine List.map_congr_left fun l hl => ?_
  obtain ⟨w, hw⟩ := Lexeme.isSubject_iff.mp (h l hl)
  rw [hw, Function.comp_apply, l.text_of_piece hw]

theorem lastNumber_eq_ok {missing : Reason} {x : Float} (hsorted : ∀ l ∈ ls, l.IsSorted)
    (h : lastNumber ending missing ls = .ok x) :
    ∃ numeral, ls.map Lexeme.piece = [.word numeral] ∧ ∃ q, Denotes numeral q := by
  unfold lastNumber at h
  split at h
  · next l rest =>
    split at h
    · next hnumber =>
      split at h
      · obtain ⟨hl, hnumeral⟩ := (Lexeme.isNumber_iff (hsorted l List.mem_cons_self)).mp hnumber
        exact ⟨l.text, by rw [List.map_singleton, hl], (isNumeral_iff _).mp hnumeral⟩
      · cases h
    · cases h
  · cases h

theorem floorSubject_eq_ok {subject after : List Lexeme} (hnote : .note ∉ ls.map Lexeme.piece)
    (h : floorSubject ls = .ok (subject, after)) :
    ls = subject ++ after ∧ (∀ l ∈ subject, l.isSubject = true ∧ l.isWord "below" = false) ∧
      ∀ l, after.head? = some l → l.isWord "below" = true := by
  induction ls generalizing subject after with
  | nil =>
    obtain ⟨rfl, rfl⟩ := Prod.mk.inj (Except.ok.inj h)
    exact ⟨rfl, nofun, nofun⟩
  | cons l ls ih =>
    rw [floorSubject] at h
    split at h
    · next hbelow =>
      obtain ⟨rfl, rfl⟩ := Prod.mk.inj (Except.ok.inj h)
      refine ⟨rfl, nofun, fun l' hl' => ?_⟩
      obtain rfl := Option.some.inj hl'
      exact hbelow
    · next hbelow =>
      split at h
      · cases h
      · next hcomparator =>
        obtain ⟨found, hfound, heq⟩ := bind_eq_ok.mp h
        obtain ⟨subject', after'⟩ := found
        obtain ⟨rfl, rfl⟩ := Prod.mk.inj (Except.ok.inj heq)
        obtain ⟨hsplit, hall, hhead⟩ := ih (fun hmem => hnote (List.mem_cons_of_mem _ hmem)) hfound
        refine ⟨by rw [List.cons_append, ← hsplit], ?_, hhead⟩
        intro l' hl'
        rcases List.mem_cons.mp hl' with rfl | hl'
        · refine ⟨?_, Bool.eq_false_iff.mpr hbelow⟩
          cases hp : l'.piece with
          | word w => exact Lexeme.isSubject_iff.mpr ⟨w, hp⟩
          | comparator operator =>
            exact absurd (Lexeme.isComparator_iff.mpr ⟨operator, hp⟩) hcomparator
          | note =>
            refine absurd ?_ hnote
            rw [List.map_cons, hp]
            exact List.mem_cons_self
        · exact hall l' hl'

theorem ne_nil_of_isEmpty {ls : List Lexeme} (h : ¬ ls.isEmpty = true) :
    ls.map Lexeme.text ≠ [] := by
  intro hnil
  rw [List.map_eq_nil_iff.mp hnil] at h
  exact h rfl

theorem parseFloor_eq_ok {c : Criterion} (hsorted : ∀ l ∈ ls, l.IsSorted)
    (hnote : .note ∉ ls.map Lexeme.piece) (h : parseFloor ending label ls = .ok c) :
    ∃ subject below numeral,
      ls.map Lexeme.piece = subject.map .word ++ [.word below, .word numeral] ∧
      subject ≠ [] ∧ (∀ w ∈ subject, ¬ IsKeyword "below" w) ∧ IsKeyword "below" below ∧
      ∃ q, Denotes numeral q := by
  obtain ⟨found, hfound, hrest⟩ := bind_eq_ok.mp h
  obtain ⟨subject, after⟩ := found
  obtain ⟨rfl, hall, hhead⟩ := floorSubject_eq_ok hnote hfound
  simp only at hrest
  split at hrest
  · cases hrest
  · next hne =>
    split at hrest
    · cases hrest
    · next below rest =>
      obtain ⟨x, hx, -⟩ := bind_eq_ok.mp hrest
      have hsorted' : ∀ l ∈ rest, l.IsSorted := fun l hl => hsorted l (by simp [hl])
      obtain ⟨numeral, hrest, hnumeral⟩ := lastNumber_eq_ok hsorted' hx
      have hbelow := (Lexeme.isWord_iff (hsorted below (by simp)) rfl (by decide)).mp
        (hhead below rfl)
      refine ⟨subject.map Lexeme.text, below.text, numeral, ?_, ne_nil_of_isEmpty hne, ?_, hbelow.2,
        hnumeral⟩
      · rw [List.map_append, List.map_cons, hrest, hbelow.1,
          map_piece_of_subject fun l hl => (hall l hl).1]
      · intro w hw hkeyword
        obtain ⟨l, hl, rfl⟩ := List.mem_map.mp hw
        obtain ⟨hsubject, hno⟩ := hall l hl
        have hpiece : l.piece = .word l.text := by
          obtain ⟨w, hw⟩ := Lexeme.isSubject_iff.mp hsubject
          rw [l.text_of_piece hw, hw]
        have hword := (Lexeme.isWord_iff (hsorted l (by simp [hl])) rfl (by decide)).mpr
          ⟨hpiece, hkeyword⟩
        exact absurd (hno.symm.trans hword) nofun

/-- Words with a last one are the words in front of it and that one. -/
theorem map_piece_of_reverse {ls before : List Lexeme} {last : Lexeme}
    (h : ∀ l ∈ ls, l.isSubject = true) (hreverse : ls.reverse = last :: before) :
    ls.map Lexeme.piece = (before.reverse.map Lexeme.text).map .word ++ [.word last.text] := by
  have hparts : ls = before.reverse ++ [last] := by
    rw [← List.reverse_cons, ← hreverse, List.reverse_reverse]
  rw [map_piece_of_subject h, hparts, List.map_append, List.map_append]
  rfl

theorem parseOther_eq_ok {c : Criterion} (hsorted : ∀ l ∈ ls, l.IsSorted)
    (h : parseOther ending label ls = .ok c) :
    ∃ subject, subject ≠ [] ∧
      ((∃ operator numeral, (∃ q, Denotes numeral q) ∧
          ls.map Lexeme.piece = subject.map .word ++ [.comparator operator, .word numeral]) ∨
        ∃ present, IsKeyword "present" present ∧
          ls.map Lexeme.piece = subject.map .word ++ [.word present]) := by
  have hsplit : ls.takeWhile Lexeme.isSubject ++ ls.dropWhile Lexeme.isSubject = ls :=
    List.takeWhile_append_dropWhile
  have hall : ∀ l ∈ ls.takeWhile Lexeme.isSubject, l.isSubject = true :=
    fun l hl => List.mem_takeWhile_imp hl
  unfold parseOther at h
  simp only at h
  split at h
  · cases h
  · next hne =>
    split at h
    · next hend =>
      rw [hend, List.append_nil] at hsplit
      rw [hsplit] at h hall
      split at h
      · next last first before hreverse =>
        split at h
        · next hpresent =>
          have hpieces := map_piece_of_reverse hall hreverse
          exact ⟨_, by simp, .inr ⟨last.text, beq_iff_eq.mp hpresent, hpieces⟩⟩
        · cases h
      · cases h
    · next l rest hrest =>
      split at h
      · next operator hk =>
        obtain ⟨x, hx, -⟩ := bind_eq_ok.mp h
        have hmem : ∀ l' ∈ rest, l' ∈ ls := by
          intro l' hl'
          rw [← hsplit, hrest]
          simp [hl']
        have hsorted' : ∀ l' ∈ rest, l'.IsSorted := fun l' hl' => hsorted l' (hmem l' hl')
        obtain ⟨numeral, hnumber, hnumeral⟩ := lastNumber_eq_ok hsorted' hx
        have hpiece : l.piece = .comparator operator := by simp [Lexeme.piece, hk]
        refine ⟨_, ne_nil_of_isEmpty hne, .inl ⟨operator, numeral, hnumeral, ?_⟩⟩
        rw [← map_piece_of_subject hall, ← hnumber, ← hpiece, ← List.map_cons, ← List.map_append,
          ← hrest, hsplit]
      · cases h

theorem exists_says_of_parseLexemes {c : Criterion} (hsorted : ∀ l ∈ ls, l.IsSorted)
    (h : parseLexemes ending label ls = .ok c) :
    ∃ f : Form, f.Says ((dropNote ls).map Lexeme.piece) := by
  have hsorted' : ∀ l ∈ dropNote ls, l.IsSorted := fun l hl => hsorted l (mem_of_mem_dropNote hl)
  unfold parseLexemes at h
  generalize dropNote ls = ls at h hsorted' ⊢
  simp only at h
  split at h
  · cases h
  · next hnote =>
    have hnote := find?_note_eq_none.mp hnote
    cases ls with
    | nil => cases h
    | cons first rest =>
      simp only at h
      have hfirst := hsorted' first List.mem_cons_self
      split at h
      · next hno =>
        obtain ⟨hpiece, hkeyword⟩ := (Lexeme.isWord_iff hfirst rfl (by decide)).mp hno
        obtain ⟨subject, below, numeral, hrest, hne, hall, hbelow, hnumeral⟩ :=
          parseFloor_eq_ok (fun l hl => hsorted' l (List.mem_cons_of_mem first hl))
            (fun hmem => hnote (List.mem_cons_of_mem _ hmem)) h
        rw [List.map_cons, hrest, hpiece]
        exact ⟨_, .floor hkeyword hne hall hbelow hnumeral⟩
      · next hno =>
        obtain ⟨subject, hne, hform⟩ := parseOther_eq_ok hsorted' h
        have hhead {tail : List Piece}
            (hpieces : (first :: rest).map Lexeme.piece = subject.map .word ++ tail) :
            ∀ w, subject.head? = some w → ¬ IsKeyword "no" w := by
          intro w hw hkeyword
          exact hno ((isWord_head_iff hfirst hne hpieces).mpr ⟨w, hw, hkeyword⟩)
        rcases hform with ⟨operator, numeral, hnumeral, hpieces⟩ | ⟨present, hpresent, hpieces⟩
        · rw [hpieces]
          exact ⟨_, .comparison hne (hhead hpieces) hnumeral⟩
        · rw [hpieces]
          exact ⟨_, .presence hne (hhead hpieces) hpresent⟩

/-- A place is that of a lexeme or the end of the text. -/
def At (ending : Nat) (ls : List Lexeme) (stop : Stop) : Prop :=
  stop.position = ending ∨ ∃ l ∈ ls, l.position = stop.position

theorem At.of_subset {ls' : List Lexeme} {stop : Stop} (h : At ending ls stop)
    (hsub : ∀ l ∈ ls, l ∈ ls') : At ending ls' stop := by
  rcases h with hend | ⟨l, hl, hposition⟩
  · exact .inl hend
  · exact .inr ⟨l, hsub l hl, hposition⟩

theorem at_of_lastNumber {missing : Reason} {stop : Stop}
    (h : lastNumber ending missing ls = .error stop) : At ending ls stop := by
  unfold lastNumber at h
  split at h
  · next l rest =>
    split at h
    · split at h
      · cases h
      · next extra _ =>
        obtain rfl := Except.error.inj h
        exact .inr ⟨extra, by simp, rfl⟩
    · obtain rfl := Except.error.inj h
      exact .inr ⟨l, by simp, rfl⟩
  · obtain rfl := Except.error.inj h
    exact .inl rfl

theorem at_of_floorSubject {stop : Stop} (h : floorSubject ls = .error stop) :
    At ending ls stop := by
  induction ls with
  | nil => cases h
  | cons l ls ih =>
    rw [floorSubject] at h
    split at h
    · cases h
    · split at h
      · obtain rfl := Except.error.inj h
        exact .inr ⟨l, by simp, rfl⟩
      · cases hrest : floorSubject ls with
        | error stop' =>
          rw [hrest] at h
          obtain rfl := Except.error.inj h
          exact (ih hrest).of_subset fun l' hl' => List.mem_cons_of_mem l hl'
        | ok found =>
          rw [hrest] at h
          cases h

theorem at_positionOf (reason : Reason) : At ending ls ⟨positionOf ending ls, reason⟩ := by
  cases ls with
  | nil => exact .inl rfl
  | cons l ls => exact .inr ⟨l, by simp, rfl⟩

theorem at_of_parseFloor {stop : Stop} (hnote : .note ∉ ls.map Lexeme.piece)
    (h : parseFloor ending label ls = .error stop) : At ending ls stop := by
  rcases bind_eq_error.mp h with hsubject | ⟨found, hfound, hrest⟩
  · exact at_of_floorSubject hsubject
  obtain ⟨subject, after⟩ := found
  obtain ⟨rfl, -, -⟩ := floorSubject_eq_ok hnote hfound
  have hafter {stop : Stop} (h : At ending after stop) : At ending (subject ++ after) stop :=
    h.of_subset fun l hl => List.mem_append_right subject hl
  simp only at hrest
  split at hrest
  · obtain rfl := Except.error.inj hrest
    exact hafter (at_positionOf _)
  · split at hrest
    · obtain rfl := Except.error.inj hrest
      exact .inl rfl
    · next below rest =>
      rcases bind_eq_error.mp hrest with hlast | ⟨x, -, hmake⟩
      · exact hafter ((at_of_lastNumber hlast).of_subset fun l hl => List.mem_cons_of_mem below hl)
      · cases hmake

theorem at_of_parseOther {stop : Stop} (h : parseOther ending label ls = .error stop) :
    At ending ls stop := by
  unfold parseOther at h
  simp only at h
  split at h
  · obtain rfl := Except.error.inj h
    exact at_positionOf _
  · split at h
    · split at h
      · split at h
        · cases h
        · obtain rfl := Except.error.inj h
          exact .inl rfl
      · obtain rfl := Except.error.inj h
        exact .inl rfl
    · next l rest hrest =>
      have hmem : ∀ l' ∈ l :: rest, l' ∈ ls := by
        intro l' hl'
        rw [← hrest] at hl'
        exact (List.dropWhile_sublist _).mem hl'
      split at h
      · rcases bind_eq_error.mp h with hlast | ⟨x, -, hmake⟩
        · have hstop := at_of_lastNumber hlast
          exact hstop.of_subset fun l' hl' => hmem l' (List.mem_cons_of_mem l hl')
        · cases hmake
      · obtain rfl := Except.error.inj h
        exact .inr ⟨l, hmem l List.mem_cons_self, rfl⟩

theorem at_of_parseLexemes {stop : Stop} (h : parseLexemes ending label ls = .error stop) :
    stop.position = 0 ∨ At ending ls stop := by
  have hsub : ∀ l ∈ dropNote ls, l ∈ ls := fun l hl => mem_of_mem_dropNote hl
  unfold parseLexemes at h
  generalize dropNote ls = ls' at h hsub
  simp only at h
  split at h
  · next l hl =>
    obtain rfl := Except.error.inj h
    exact .inr (.inr ⟨l, hsub l (List.mem_of_find?_eq_some hl), rfl⟩)
  · next hnote =>
    have hnote := find?_note_eq_none.mp hnote
    cases ls' with
    | nil =>
      obtain rfl := Except.error.inj h
      exact .inl rfl
    | cons first rest =>
      simp only at h
      split at h
      · have hrest := at_of_parseFloor (fun hmem => hnote (List.mem_cons_of_mem _ hmem)) h
        exact .inr (hrest.of_subset fun l hl => hsub l (List.mem_cons_of_mem first hl))
      · exact .inr ((at_of_parseOther h).of_subset hsub)

/-- A text that is not all blank has something left without the blanks at its ends. -/
theorem trim_ne_nil {cs : List Char} (h : ∃ c ∈ cs, Text.isBlank c = false) :
    Text.trim cs ≠ [] := by
  intro hnil
  obtain ⟨c, hc, hblank⟩ := h
  have hback : ((cs.dropWhile Text.isBlank).reverse.dropWhile Text.isBlank) = [] :=
    List.reverse_eq_nil_iff.mp hnil
  have hall := List.dropWhile_eq_nil_iff.mp hback
  have hfront : cs.dropWhile Text.isBlank = [] := by
    have hstop := List.head?_dropWhile_not Text.isBlank cs
    cases hrest : cs.dropWhile Text.isBlank with
    | nil => rfl
    | cons d ds =>
      rw [hrest] at hstop hall
      have hd := hall d (by simp)
      exact absurd (hd.symm.trans hstop) nofun
  have hc' := List.dropWhile_eq_nil_iff.mp hfront c hc
  exact absurd (hc'.symm.trans hblank) nofun

theorem parse_eq (text : String) :
    parse text = (lexemes text.toList >>= parseLexemes text.toList.length
      (String.ofList (Text.trim text.toList))).mapError
        fun stop => ⟨text, stop.position, stop.reason⟩ := by
  simp only [parse]
  cases lexemes text.toList >>= parseLexemes text.toList.length
      (String.ofList (Text.trim text.toList)) with
  | ok c => rfl
  | error stop => rfl

/-- Every form is read as what it says. -/
theorem parse_of_reads {text : String} {f : Form} (h : Reads text f) :
    ∃ c, parse text = .ok c ∧ Matches (String.ofList (Text.trim text.toList)) f c := by
  obtain ⟨ps, hps, hspells⟩ := h
  obtain ⟨qs, hqs, hspelled⟩ : ∃ qs, (qs = ps ∨ qs = ps ++ [.note]) ∧ Spells qs text.toList [] := by
    rcases hspells with h | h
    · exact ⟨ps, .inl rfl, h⟩
    · exact ⟨_, .inr rfl, h⟩
  obtain ⟨ls, hls, rfl⟩ := lexemes_of_spells hspelled
  have hlexed := lexed_lexemes text.toList
  rw [hls] at hlexed
  obtain ⟨-, hsorted, -⟩ := hlexed
  have hne : ls.map Lexeme.piece ≠ [] := by
    have hps' : ps ≠ [] := by cases hps <;> simp
    rcases hqs with h | h <;> simp [h, hps']
  have hlabel : (String.ofList (Text.trim text.toList)).isEmpty = false := by
    have htrim := trim_ne_nil (hspelled.exists_not_blank hne)
    simpa using htrim
  obtain ⟨c, hc, hmatches⟩ := parseLexemes_of_says hlabel hsorted
    (fun operator hmem => hspelled.operator_ne_present hmem) hps hqs
  exact ⟨c, by rw [parse_eq, hls, ok_bind, hc, mapError_ok], hmatches⟩

/-- Whatever is read has a form. -/
theorem reads_of_parse {text : String} {c : Criterion} (h : parse text = .ok c) :
    ∃ f, Reads text f := by
  rw [parse_eq, mapError_eq_ok] at h
  obtain ⟨ls, hls, hparse⟩ := bind_eq_ok.mp h
  have hlexed := lexed_lexemes text.toList
  rw [hls] at hlexed
  obtain ⟨hspells, hsorted, -⟩ := hlexed
  obtain ⟨f, hf⟩ := exists_says_of_parseLexemes hsorted hparse
  refine ⟨f, _, hf, ?_⟩
  rcases pieces_of_dropNote ls with hsame | hnote
  · exact .inl (hsame ▸ hspells)
  · exact .inr (hnote ▸ hspells)

/-- A problem is with the text, at a place in it. -/
theorem place_of_parse {text : String} {p : Problem} (h : parse text = .error p) :
    p.text = text ∧ (p.position = 0 ∨ p.position = text.toList.length ∨
      Begins 0 text.toList p.position) := by
  have hlexed := lexed_lexemes text.toList
  rw [parse_eq] at h
  cases hls : lexemes text.toList with
  | error stop =>
    rw [hls] at h hlexed
    obtain rfl := Except.error.inj h
    exact ⟨rfl, .inr (.inr hlexed)⟩
  | ok ls =>
    rw [hls] at hlexed
    rw [hls, ok_bind] at h
    obtain ⟨-, -, hplaces⟩ := hlexed
    cases hparse : parseLexemes text.toList.length (String.ofList (Text.trim text.toList)) ls with
    | ok c =>
      rw [hparse] at h
      cases h
    | error stop =>
      rw [hparse] at h
      obtain rfl := Except.error.inj h
      rcases at_of_parseLexemes hparse with hzero | hend | ⟨l, hl, hposition⟩
      · exact ⟨rfl, .inl hzero⟩
      · exact ⟨rfl, .inr (.inl hend)⟩
      · have hbegins := hplaces l hl
        rw [hposition] at hbegins
        exact ⟨rfl, .inr (.inr hbegins)⟩

theorem Begins.le {start position : Nat} {cs : List Char} (h : Begins start cs position) :
    position ≤ start + cs.length := by
  obtain ⟨ps, c, rest, -, -, hposition⟩ := h
  omega

/-- The parser reads exactly the texts that have a form, and what it makes of one is what the form
says. For any other text there is a problem with the text and a place in it: its beginning or its
end, or a place with whole pieces in front of it at which something begins. -/
theorem parse_spec (text : String) :
    ((∃ c, parse text = .ok c) ↔ ∃ f, Reads text f) ∧
      (∀ f g, Reads text f → Reads text g → f = g) ∧
      (∀ f c, Reads text f → parse text = .ok c →
        Matches (String.ofList (Text.trim text.toList)) f c) ∧
      ∀ p, parse text = .error p → p.text = text ∧ p.position ≤ text.toList.length ∧
        (p.position = 0 ∨ p.position = text.toList.length ∨ Begins 0 text.toList p.position) := by
  refine ⟨⟨?_, ?_⟩, ?_, ?_, ?_⟩
  · intro h
    obtain ⟨c, hc⟩ := h
    exact reads_of_parse hc
  · intro h
    obtain ⟨f, hf⟩ := h
    obtain ⟨c, hc, -⟩ := parse_of_reads hf
    exact ⟨c, hc⟩
  · intro f g hf hg
    exact hf.unique hg
  · intro f c hf hc
    obtain ⟨c', hc', hmatches⟩ := parse_of_reads hf
    obtain rfl := Except.ok.inj (hc.symm.trans hc')
    exact hmatches
  · intro p hp
    obtain ⟨htext, hplace⟩ := place_of_parse hp
    refine ⟨htext, ?_, hplace⟩
    rcases hplace with hzero | hend | hbegins
    · omega
    · omega
    · have hle := hbegins.le
      omega

/-- Numerals and keywords may stand in a subject. -/
example : (parse "5 present < 3").toOption.map (fun c => (c.field, c.operator)) =
    some ("5_present", .lt) := by decide +kernel

end DecisionGate.Criteria
