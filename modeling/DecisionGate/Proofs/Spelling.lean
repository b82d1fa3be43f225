import Mathlib.Data.List.TakeWhile
import DecisionGate.Criteria.Lexeme
import DecisionGate.Proofs.Results

/-!
# The spelling of a criterion

A text is pieces with blanks between them: words, comparators and notes in parentheses. A word goes
on as long as it can, and of two comparators that begin alike the longer one counts. The lexemes of
a text are its pieces in order, each with its place; a text without a spelling has no lexemes, and
the place where they stop is one where no piece begins.
-/
namespace DecisionGate.Criteria

/-- What a text consists of, but for blanks. -/
inductive Piece where
  | word (w : List Char)
  | comparator (operator : Operator)
  | note
  deriving DecidableEq, Repr

/-- The eight comparators. -/
def symbols : List (List Char × Operator) :=
  [(['>', '='], .ge), (['<', '='], .le), (['=', '='], .eq), (['≥'], .ge), (['≤'], .le),
   (['>'], .gt), (['<'], .lt), (['='], .eq)]

/-- No comparator at the start of a text is longer than some characters. -/
def IsLongest (symbol after : List Char) : Prop :=
  ∀ p ∈ symbols, p.1 <+: symbol ++ after → p.1.length ≤ symbol.length

/-- A piece is written in some characters in front of others. -/
inductive Piece.Written : Piece → List Char → List Char → Prop
  | word {w after : List Char} : w ≠ [] → (∀ c ∈ w, isWordChar c = true) →
      (∀ c, after.head? = some c → isWordChar c = false) → Written (.word w) w after
  | comparator {symbol after : List Char} {operator : Operator} : (symbol, operator) ∈ symbols →
      IsLongest symbol after → Written (.comparator operator) symbol after
  | note {inside after : List Char} : ')' ∉ inside →
      Written .note ('(' :: (inside ++ [')'])) after

/-- A text up to some rest is the pieces with blanks between them. -/
inductive Spells : List Piece → List Char → List Char → Prop
  | nil {rest : List Char} : Spells [] rest rest
  | blank {ps : List Piece} {c : Char} {cs rest : List Char} : Text.isBlank c = true →
      Spells ps cs rest → Spells ps (c :: cs) rest
  | piece {p : Piece} {ps : List Piece} {front cs rest : List Char} : p.Written front cs →
      Spells ps cs rest → Spells (p :: ps) (front ++ cs) rest

/-- The piece that a lexeme is. -/
def Lexeme.piece (l : Lexeme) : Piece :=
  match l.kind with
  | .word => .word l.text
  | .number => .word l.text
  | .comparator operator => .comparator operator
  | .note => .note

/-- The words of a text are told apart by whether they are numerals. -/
def Lexeme.IsSorted (l : Lexeme) : Prop :=
  match l.kind with
  | .word => isNumeral l.text = false
  | .number => isNumeral l.text = true
  | _ => True

variable {c : Char} {cs rest front after : List Char} {p : Piece} {operator : Operator}

/-- One sign is the longest comparator only if no equals sign follows. -/
theorem isLongest_single (hc : c = '>' ∨ c = '<' ∨ c = '=') :
    IsLongest [c] after ↔ ∀ rest, after ≠ '=' :: rest := by
  constructor
  · rintro h rest rfl
    have hmem : ∃ operator, ([c, '='], operator) ∈ symbols := by
      rcases hc with rfl | rfl | rfl
      · exact ⟨.ge, by simp [symbols]⟩
      · exact ⟨.le, by simp [symbols]⟩
      · exact ⟨.eq, by simp [symbols]⟩
    obtain ⟨operator, hmem⟩ := hmem
    have hlength := h _ hmem ⟨rest, rfl⟩
    simp at hlength
  · intro h p hp hprefix
    have hshort : ∀ p ∈ symbols, p.1.length ≤ 1 ∨ ∃ d, p.1 = [d, '='] := by
      simp [symbols]
    rcases hshort p hp with hshort | ⟨d, hd⟩
    · exact hshort
    · rw [hd] at hprefix
      obtain ⟨tail, htail⟩ := hprefix
      simp only [List.cons_append, List.nil_append, List.cons.injEq] at htail
      exact absurd htail.2.symm (h tail)

theorem isLongest_of_head (h : ∀ p ∈ symbols, p.1.head? = some c → p.1.length ≤ 1) :
    IsLongest [c] after := by
  intro p hp hprefix
  refine h p hp ?_
  obtain ⟨tail, htail⟩ := hprefix
  have hne : ∀ p ∈ symbols, p.1 ≠ [] := by simp [symbols]
  have hhead := congrArg List.head? htail
  rwa [List.head?_append_of_ne_nil _ (hne p hp)] at hhead

theorem comparator?_of_longest {symbol : List Char} (hmem : (symbol, operator) ∈ symbols)
    (hlongest : IsLongest symbol after) :
    comparator? (symbol ++ after) = some (operator, symbol.length) := by
  simp only [symbols, List.mem_cons, Prod.mk.injEq, List.not_mem_nil, or_false] at hmem
  rcases hmem with ⟨rfl, rfl⟩ | ⟨rfl, rfl⟩ | ⟨rfl, rfl⟩ | ⟨rfl, rfl⟩ | ⟨rfl, rfl⟩ | h | h | h
  · rfl
  · rfl
  · rfl
  · rfl
  · rfl
  all_goals
    obtain ⟨rfl, rfl⟩ := h
    have hnext := (isLongest_single (by simp)).mp hlongest
    simp only [List.cons_append, List.nil_append]
    unfold comparator?
    split <;> simp_all

theorem exists_longest_of_comparator? {n : Nat} (h : comparator? cs = some (operator, n)) :
    ∃ symbol after, cs = symbol ++ after ∧ symbol.length = n ∧ (symbol, operator) ∈ symbols ∧
      IsLongest symbol after := by
  have hdouble {c d : Char} {o : Operator} {rest : List Char}
      (hmem : ([c, d], o) ∈ symbols) (ho : some (o, 2) = some (operator, n)) :
      ∃ symbol after, c :: d :: rest = symbol ++ after ∧ symbol.length = n ∧
        (symbol, operator) ∈ symbols ∧ IsLongest symbol after := by
    obtain ⟨rfl, rfl⟩ := Prod.mk.inj (Option.some.inj ho)
    have hlongest : ∀ p ∈ symbols, p.1.length ≤ 2 := by simp [symbols]
    exact ⟨[c, d], rest, rfl, rfl, hmem, fun p hp _ => hlongest p hp⟩
  have hsingle {c : Char} {o : Operator} {rest : List Char} (hmem : ([c], o) ∈ symbols)
      (hlongest : IsLongest [c] rest) (ho : some (o, 1) = some (operator, n)) :
      ∃ symbol after, c :: rest = symbol ++ after ∧ symbol.length = n ∧
        (symbol, operator) ∈ symbols ∧ IsLongest symbol after := by
    obtain ⟨rfl, rfl⟩ := Prod.mk.inj (Option.some.inj ho)
    exact ⟨[c], rest, rfl, rfl, hmem, hlongest⟩
  unfold comparator? at h
  split at h
  case h_1 => exact hdouble (by simp [symbols]) h
  case h_2 => exact hdouble (by simp [symbols]) h
  case h_3 => exact hdouble (by simp [symbols]) h
  case h_4 => exact hsingle (by simp [symbols]) (isLongest_of_head (by simp [symbols])) h
  case h_5 => exact hsingle (by simp [symbols]) (isLongest_of_head (by simp [symbols])) h
  case h_6 hnext => exact hsingle (by simp [symbols]) ((isLongest_single (by simp)).mpr hnext) h
  case h_7 hnext => exact hsingle (by simp [symbols]) ((isLongest_single (by simp)).mpr hnext) h
  case h_8 hnext => exact hsingle (by simp [symbols]) ((isLongest_single (by simp)).mpr hnext) h
  case h_9 => cases h

/-- A comparator begins with one of its characters, and with each of them a comparator begins. -/
theorem comparator?_eq_none_iff : comparator? (c :: cs) = none ↔ isComparatorChar c = false := by
  constructor
  · intro h
    unfold comparator? at h
    split at h <;> simp_all [isComparatorChar]
  · intro h
    unfold comparator?
    split <;> simp_all [isComparatorChar]

theorem isWordChar_iff : isWordChar c = true ↔
    Text.isBlank c = false ∧ isComparatorChar c = false ∧ c ≠ '(' ∧ c ≠ ')' := by
  simp [isWordChar, isParenthesis, and_assoc]

/-- Whatever a text begins with is a blank, a parenthesis without its like, or a piece. -/
theorem exists_written_or (c : Char) (cs : List Char) :
    Text.isBlank c = true ∨ (c = '(' ∧ ')' ∉ cs) ∨ c = ')' ∨
      ∃ p front after, c :: cs = front ++ after ∧ Piece.Written p front after := by
  by_cases hblank : Text.isBlank c = true
  · exact .inl hblank
  by_cases hopen : c = '('
  · by_cases hclosed : ')' ∈ cs
    · obtain ⟨inside, after, rfl, hinside⟩ := List.eq_append_cons_of_mem hclosed
      refine .inr (.inr (.inr ⟨.note, _, after, ?_, .note hinside⟩))
      simp [hopen]
    · exact .inr (.inl ⟨hopen, hclosed⟩)
  by_cases hclose : c = ')'
  · exact .inr (.inr (.inl hclose))
  · refine .inr (.inr (.inr ?_))
    cases hcomparator : comparator? (c :: cs) with
    | some found =>
      obtain ⟨operator, n⟩ := found
      obtain ⟨symbol, after, hsplit, -, hmem, hlongest⟩ := exists_longest_of_comparator? hcomparator
      exact ⟨.comparator operator, symbol, after, hsplit, .comparator hmem hlongest⟩
    | none =>
      have hword : isWordChar c = true := by
        refine isWordChar_iff.mpr ⟨?_, comparator?_eq_none_iff.mp hcomparator, hopen, hclose⟩
        exact Bool.eq_false_iff.mpr hblank
      refine ⟨.word ((c :: cs).takeWhile isWordChar), _, (c :: cs).dropWhile isWordChar,
        List.takeWhile_append_dropWhile.symm, .word ?_ ?_ ?_⟩
      · simp [hword]
      · exact fun d hd => List.mem_takeWhile_imp hd
      · intro d hd
        have hstop := List.head?_dropWhile_not isWordChar (c :: cs)
        rw [hd] at hstop
        exact hstop

theorem Piece.Written.ne_nil (h : p.Written front after) : front ≠ [] := by
  cases h with
  | word hne _ _ => exact hne
  | comparator hmem _ =>
    have hall : ∀ p ∈ symbols, p.1 ≠ [] := by simp [symbols]
    exact hall _ hmem
  | note _ => simp

/-- No piece begins with a blank. -/
theorem Piece.Written.head (h : p.Written front after) :
    ∃ c cs, front = c :: cs ∧ Text.isBlank c = false := by
  cases h with
  | word hne hall _ =>
    obtain ⟨c, cs, rfl⟩ := List.exists_cons_of_ne_nil hne
    exact ⟨c, cs, rfl, (isWordChar_iff.mp (hall c List.mem_cons_self)).1⟩
  | comparator hmem _ =>
    have hall : ∀ p ∈ symbols, ∃ c cs, p.1 = c :: cs ∧ Text.isBlank c = false := by
      simp [symbols]
      decide
    exact hall _ hmem
  | note _ => exact ⟨'(', _, rfl, by decide⟩

theorem bind_cons_eq_map {r : Except Stop (List Lexeme)} {l : Lexeme} :
    (do let more ← r; .ok (l :: more)) = r.map (l :: ·) := by
  cases r <;> rfl

theorem lexemesFrom_blank (hc : Text.isBlank c = true) (fuel start : Nat) :
    lexemesFrom (fuel + 1) start (c :: cs) = lexemesFrom fuel (start + 1) cs := by
  rw [lexemesFrom, if_pos hc]

theorem lexemesFrom_note {inside : List Char} (h : ')' ∉ inside) (fuel start : Nat) :
    lexemesFrom (fuel + 1) start ('(' :: (inside ++ ')' :: after)) =
      (lexemesFrom fuel (start + (inside.length + 2)) after).map
        (⟨.note, Text.trim inside, start⟩ :: ·) := by
  have hinside : ∀ c ∈ inside, (c != ')') = true := by
    intro c hc
    rw [bne_iff_ne]
    rintro rfl
    exact h hc
  have htake : (inside ++ ')' :: after).takeWhile (· != ')') = inside := by
    rw [List.takeWhile_append_of_pos hinside, List.takeWhile_cons_of_neg (by simp),
      List.append_nil]
  have hmore : inside.length ≠ (inside ++ ')' :: after).length := by simp
  have hdrop : (inside ++ ')' :: after).drop (inside.length + 1) = after := by
    rw [List.drop_append, Nat.add_sub_cancel_left, List.drop_of_length_le (by omega)]
    rfl
  have hblank : Text.isBlank '(' = false := by decide
  rw [lexemesFrom]
  simp only [hblank, Bool.false_eq_true, if_false, if_true, htake, hmore, hdrop, bind_cons_eq_map,
    Nat.add_assoc]

theorem lexemesFrom_comparator (hmem : (front, operator) ∈ symbols)
    (hlongest : IsLongest front after) (fuel start : Nat) :
    lexemesFrom (fuel + 1) start (front ++ after) =
      (lexemesFrom fuel (start + front.length) after).map
        (⟨.comparator operator, front, start⟩ :: ·) := by
  have hfound := comparator?_of_longest hmem hlongest
  have hstart : ∀ p ∈ symbols, ∃ c cs, p.1 = c :: cs ∧ Text.isBlank c = false ∧ c ≠ '(' ∧
      c ≠ ')' := by
    simp [symbols]
    decide
  obtain ⟨c, cs, rfl, hblank, hopen, hclose⟩ := hstart _ hmem
  rw [List.cons_append] at hfound ⊢
  have htake : (c :: (cs ++ after)).take (c :: cs).length = c :: cs := by
    rw [← List.cons_append, List.take_left]
  have hdrop : (cs ++ after).drop ((c :: cs).length - 1) = after := by simp
  rw [lexemesFrom, hblank, hfound]
  simp only [Bool.false_eq_true, if_false, hopen, hclose, htake, hdrop, bind_cons_eq_map]

theorem lexemesFrom_word (hne : front ≠ []) (hall : ∀ c ∈ front, isWordChar c = true)
    (hstop : ∀ c, after.head? = some c → isWordChar c = false) (fuel start : Nat) :
    lexemesFrom (fuel + 1) start (front ++ after) =
      (lexemesFrom fuel (start + front.length) after).map
        (⟨if isNumeral front then .number else .word, front, start⟩ :: ·) := by
  obtain ⟨c, cs, rfl⟩ := List.exists_cons_of_ne_nil hne
  obtain ⟨hblank, hcomparator, hopen, hclose⟩ := isWordChar_iff.mp (hall c List.mem_cons_self)
  have hnone : comparator? (c :: (cs ++ after)) = none := comparator?_eq_none_iff.mpr hcomparator
  have hchunk : (c :: (cs ++ after)).takeWhile isWordChar = c :: cs := by
    have hend : after.takeWhile isWordChar = [] := by
      cases after with
      | nil => rfl
      | cons d rest => exact List.takeWhile_cons_of_neg (by simp [hstop d rfl])
    rw [← List.cons_append, List.takeWhile_append_of_pos hall, hend, List.append_nil]
  have hdrop : (c :: (cs ++ after)).drop (c :: cs).length = after := by
    rw [← List.cons_append, List.drop_left]
  rw [List.cons_append, lexemesFrom, hblank, hnone]
  simp only [Bool.false_eq_true, if_false, hopen, hclose, hchunk, hdrop, bind_cons_eq_map]

/-- A piece at the start of a text is its first lexeme. -/
theorem lexemesFrom_written (h : p.Written front after) (fuel start : Nat) :
    ∃ l : Lexeme, l.piece = p ∧ l.IsSorted ∧ l.position = start ∧
      lexemesFrom (fuel + 1) start (front ++ after) =
        (lexemesFrom fuel (start + front.length) after).map (l :: ·) := by
  cases h with
  | word hne hall hstop =>
    refine ⟨_, ?_, ?_, rfl, lexemesFrom_word hne hall hstop fuel start⟩
    · simp only [Lexeme.piece]
      cases isNumeral front <;> rfl
    · simp only [Lexeme.IsSorted]
      cases hnumeral : isNumeral front <;> simp
  | @comparator _ _ operator hmem hlongest =>
    exact ⟨⟨.comparator operator, front, start⟩, rfl, trivial, rfl,
      lexemesFrom_comparator hmem hlongest fuel start⟩
  | @note inside _ hinside =>
    refine ⟨⟨.note, Text.trim inside, start⟩, rfl, trivial, rfl, ?_⟩
    have hlength : ('(' :: (inside ++ [')'])).length = inside.length + 2 := by simp
    rw [List.cons_append, List.append_assoc, List.singleton_append, hlength]
    exact lexemesFrom_note hinside fuel start

/-- No comparator asks for presence. -/
theorem Spells.operator_ne_present {ps : List Piece} (h : Spells ps cs rest)
    (hmem : .comparator operator ∈ ps) : operator ≠ .present := by
  induction h with
  | nil => cases hmem
  | blank _ _ ih => exact ih hmem
  | piece hp _ ih =>
    rcases List.mem_cons.mp hmem with rfl | hmem
    · cases hp with
      | comparator hsymbol _ =>
        have hall : ∀ p ∈ symbols, p.2 ≠ .present := by simp [symbols]
        exact hall _ hsymbol
    · exact ih hmem

/-- Where there is a piece not everything is blank. -/
theorem Spells.exists_not_blank {ps : List Piece} (h : Spells ps cs rest) (hne : ps ≠ []) :
    ∃ c ∈ cs, Text.isBlank c = false := by
  induction h with
  | nil => exact absurd rfl hne
  | blank _ _ ih =>
    obtain ⟨c, hc, hblank⟩ := ih hne
    exact ⟨c, List.mem_cons_of_mem _ hc, hblank⟩
  | piece hp _ _ =>
    obtain ⟨c, cs, rfl, hblank⟩ := hp.head
    exact ⟨c, by simp, hblank⟩

/-- Whatever is spelled has its pieces as lexemes. -/
theorem lexemesFrom_of_spells {ps : List Piece} (h : Spells ps cs []) {fuel : Nat}
    (hfuel : cs.length ≤ fuel) (start : Nat) :
    ∃ ls, lexemesFrom fuel start cs = .ok ls ∧ ls.map Lexeme.piece = ps := by
  obtain ⟨rest, hrest⟩ : ∃ rest : List Char, rest = [] := ⟨_, rfl⟩
  rw [← hrest] at h
  induction h generalizing fuel start with
  | nil =>
    subst hrest
    exact ⟨[], by cases fuel <;> rfl, rfl⟩
  | @blank ps c cs rest hc _ ih =>
    cases fuel with
    | zero => simp at hfuel
    | succ fuel =>
      rw [lexemesFrom_blank hc]
      exact ih (Nat.le_of_succ_le_succ hfuel) _ hrest
  | @piece p ps front cs rest hp _ ih =>
    have hfront := List.length_pos_of_ne_nil hp.ne_nil
    rw [List.length_append] at hfuel
    cases fuel with
    | zero => omega
    | succ fuel =>
      obtain ⟨l, hl, -, -, hlexemes⟩ := lexemesFrom_written hp fuel start
      have hshort : cs.length ≤ fuel := by omega
      obtain ⟨ls, hls, hpieces⟩ := ih hshort (start + front.length) hrest
      rw [hlexemes, hls]
      exact ⟨l :: ls, rfl, by rw [List.map_cons, hl, hpieces]⟩

/-- At a place in a text there is no blank, and in front of it are whole pieces. -/
def Begins (start : Nat) (cs : List Char) (position : Nat) : Prop :=
  ∃ ps c rest, Spells ps cs (c :: rest) ∧ Text.isBlank c = false ∧
    position + (c :: rest).length = start + cs.length

/-- What the lexemes of a text come to: the pieces that it is spelled with, each where it begins,
or the place of something that is no piece. -/
def Lexed (start : Nat) (cs : List Char) : Except Stop (List Lexeme) → Prop
  | .ok ls => Spells (ls.map Lexeme.piece) cs [] ∧ (∀ l ∈ ls, l.IsSorted) ∧
      ∀ l ∈ ls, Begins start cs l.position
  | .error stop => Begins start cs stop.position

theorem Lexed.blank {start : Nat} {r : Except Stop (List Lexeme)} (hc : Text.isBlank c = true)
    (h : Lexed (start + 1) cs r) : Lexed start (c :: cs) r := by
  have hbegins {position : Nat} (h : Begins (start + 1) cs position) :
      Begins start (c :: cs) position := by
    obtain ⟨ps, d, rest, hps, hd, hposition⟩ := h
    refine ⟨ps, d, rest, .blank hc hps, hd, ?_⟩
    rw [hposition, List.length_cons]
    omega
  cases r with
  | error stop => exact hbegins h
  | ok ls => exact ⟨.blank hc h.1, h.2.1, fun l hl => hbegins (h.2.2 l hl)⟩

theorem Lexed.piece {start : Nat} {r : Except Stop (List Lexeme)} {l : Lexeme}
    (hp : p.Written front after) (hl : l.piece = p) (hsorted : l.IsSorted)
    (hposition : l.position = start) (h : Lexed (start + front.length) after r) :
    Lexed start (front ++ after) (r.map (l :: ·)) := by
  have hbegins {position : Nat} (h : Begins (start + front.length) after position) :
      Begins start (front ++ after) position := by
    obtain ⟨ps, d, rest, hps, hd, hposition⟩ := h
    refine ⟨p :: ps, d, rest, .piece hp hps, hd, ?_⟩
    rw [List.length_append]
    omega
  cases r with
  | error stop => exact hbegins h
  | ok ls =>
    obtain ⟨hspells, hall, hplaces⟩ := h
    refine ⟨?_, ?_, ?_⟩
    · rw [List.map_cons, hl]
      exact .piece hp hspells
    · intro l' hl'
      rcases List.mem_cons.mp hl' with rfl | hl'
      · exact hsorted
      · exact hall l' hl'
    · intro l' hl'
      rcases List.mem_cons.mp hl' with rfl | hl'
      · obtain ⟨c, cs, rfl, hc⟩ := hp.head
        exact ⟨[], c, cs ++ after, .nil, hc, by rw [hposition]; rfl⟩
      · exact hbegins (hplaces l' hl')

/-- The lexemes of a text are its pieces. -/
theorem lexed_lexemesFrom {fuel : Nat} (hfuel : cs.length ≤ fuel) (start : Nat) :
    Lexed start cs (lexemesFrom fuel start cs) := by
  induction fuel generalizing cs start with
  | zero =>
    obtain rfl := List.eq_nil_of_length_eq_zero (Nat.le_zero.mp hfuel)
    exact ⟨.nil, nofun, nofun⟩
  | succ fuel ih =>
    cases cs with
    | nil => exact ⟨.nil, nofun, nofun⟩
    | cons c cs =>
      rcases exists_written_or c cs with hblank | ⟨rfl, hopen⟩ | rfl | ⟨p, front, after, hsplit, hp⟩
      · rw [lexemesFrom_blank hblank]
        exact (ih (Nat.le_of_succ_le_succ hfuel) (start + 1)).blank hblank
      · have hstop : lexemesFrom (fuel + 1) start ('(' :: cs) =
            .error ⟨start, .unterminatedNote⟩ := by
          have hall : cs.takeWhile (· != ')') = cs := by
            refine List.takeWhile_eq_self_iff.mpr fun c hc => ?_
            rw [bne_iff_ne]
            rintro rfl
            exact hopen hc
          have hblank : Text.isBlank '(' = false := by decide
          rw [lexemesFrom, hblank]
          simp only [hall, Bool.false_eq_true, if_false, if_true]
        rw [hstop]
        exact ⟨[], '(', cs, .nil, by decide, rfl⟩
      · have hstop : lexemesFrom (fuel + 1) start (')' :: cs) =
            .error ⟨start, .strayParenthesis⟩ := by
          have hblank : Text.isBlank ')' = false := by decide
          rw [lexemesFrom, hblank]
          simp
        rw [hstop]
        exact ⟨[], ')', cs, .nil, by decide, rfl⟩
      · have hfront := List.length_pos_of_ne_nil hp.ne_nil
        rw [hsplit, List.length_append] at hfuel
        obtain ⟨l, hl, hsorted, hposition, hlexemes⟩ := lexemesFrom_written hp fuel start
        rw [hsplit, hlexemes]
        exact (ih (by omega) (start + front.length)).piece hp hl hsorted hposition

theorem lexed_lexemes (cs : List Char) : Lexed 0 cs (lexemes cs) := lexed_lexemesFrom le_rfl 0

theorem lexemes_of_spells {ps : List Piece} (h : Spells ps cs []) :
    ∃ ls, lexemes cs = .ok ls ∧ ls.map Lexeme.piece = ps :=
  lexemesFrom_of_spells h le_rfl 0

/-- A text has one spelling at most. -/
theorem Spells.unique {ps ps' : List Piece} (h : Spells ps cs []) (h' : Spells ps' cs []) :
    ps = ps' := by
  obtain ⟨ls, hls, hps⟩ := lexemes_of_spells h
  obtain ⟨ls', hls', hps'⟩ := lexemes_of_spells h'
  obtain rfl := Except.ok.inj (hls.symm.trans hls')
  exact hps.symm.trans hps'

end DecisionGate.Criteria
