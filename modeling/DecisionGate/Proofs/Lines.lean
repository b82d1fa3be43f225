import Mathlib.Data.List.DropRight
import DecisionGate.Text.Lines

/-!
# The lines of a text

Lines that are written with a line feed after each are read back as they were, and so are those that
are joined by line feeds, but for an empty one at the end. A text that is all whole lines has its
own lines, whatever follows it.
-/
namespace DecisionGate.Text

/-- Nothing in a text ends a line. -/
def Unbroken (l : List Char) : Prop := ∀ c ∈ l, isLineBreak c = false

/-- The last line of a text is ended. -/
def IsEnded (cs : List Char) : Prop := ∀ c ∈ cs.getLast?, isLineBreak c = true

instance (cs : List Char) : Decidable (IsEnded cs) :=
  inferInstanceAs (Decidable (∀ c ∈ cs.getLast?, isLineBreak c = true))

/-- Lines, each with a line feed after it. -/
def written (ls : List (List Char)) : List Char := ls.flatMap (· ++ ['\n'])

/-- Lines with a line feed between them. -/
abbrev joined (ls : List (List Char)) : List Char := ['\n'].intercalate ls

section
variable {c : Char} {l cs rest current : List Char} {ls : List (List Char)}

theorem unbroken_nil : Unbroken [] := nofun

theorem unbroken_cons : Unbroken (c :: l) ↔ isLineBreak c = false ∧ Unbroken l := by
  simp [Unbroken]

theorem Unbroken.newline_notMem (h : Unbroken l) : '\n' ∉ l := fun hmem => by
  have := h _ hmem
  contradiction

theorem IsEnded.tail (h : IsEnded (c :: cs)) : IsEnded cs := fun d hd => by
  refine h d ?_
  cases cs with
  | nil => cases hd
  | cons e cs => rwa [List.getLast?_cons_cons]

/-- The first line of a text and what follows it are told apart by the first line feed. -/
theorem line_inj {m rest' : List Char} (hl : '\n' ∉ l) (hm : '\n' ∉ m)
    (h : l ++ '\n' :: rest = m ++ '\n' :: rest') : l = m ∧ rest = rest' := by
  induction l generalizing m with
  | nil =>
    cases m with
    | nil => exact ⟨rfl, (List.cons.inj h).2⟩
    | cons d m => exact absurd ((List.cons.inj h).1 ▸ List.mem_cons_self) hm
  | cons c l ih =>
    cases m with
    | nil => exact absurd ((List.cons.inj h).1 ▸ List.mem_cons_self) hl
    | cons d m =>
      obtain ⟨rfl, htail⟩ := List.cons.inj h
      obtain ⟨rfl, hrest⟩ :=
        ih (List.not_mem_of_not_mem_cons hl) (List.not_mem_of_not_mem_cons hm) htail
      exact ⟨rfl, hrest⟩

/-- What a text begins with stands in its first line, if it holds no line feed. -/
theorem prefix_of_prefix_line {p : List Char} (hp : '\n' ∉ p) (h : p <+: l ++ '\n' :: rest) :
    p <+: l := by
  induction p generalizing l with
  | nil => exact List.nil_prefix
  | cons c p ih =>
    cases l with
    | nil => exact absurd ((List.cons_prefix_cons.mp h).1 ▸ List.mem_cons_self) hp
    | cons d l =>
      obtain ⟨rfl, htail⟩ := List.cons_prefix_cons.mp h
      exact List.cons_prefix_cons.mpr ⟨rfl, ih (List.not_mem_of_not_mem_cons hp) htail⟩

theorem linesFrom_of_not_break (h : isLineBreak c = false) :
    linesFrom current (c :: cs) = linesFrom (c :: current) cs := by
  have hreturn : c ≠ '\r' := by
    rintro rfl
    contradiction
  rw [linesFrom, if_neg (by simp [h])]
  rintro rest rfl
  exact absurd rfl hreturn

theorem linesFrom_newline : linesFrom current ('\n' :: cs) = current.reverse :: lines cs := by
  rw [linesFrom, if_pos (by decide), lines]
  simp

theorem linesFrom_unbroken (h : Unbroken l) :
    linesFrom current (l ++ cs) = linesFrom (l.reverse ++ current) cs := by
  induction l generalizing current with
  | nil => rfl
  | cons c l ih =>
    obtain ⟨hc, hl⟩ := unbroken_cons.mp h
    rw [List.cons_append, linesFrom_of_not_break hc, ih hl, List.reverse_cons, List.append_assoc]
    rfl

theorem lines_line (h : Unbroken l) : lines (l ++ '\n' :: rest) = l :: lines rest := by
  rw [lines, linesFrom_unbroken h, linesFrom_newline, List.append_nil, List.reverse_reverse]

theorem lines_last (h : Unbroken l) (hne : l ≠ []) : lines l = [l] := by
  have hstep : linesFrom [] (l ++ []) = linesFrom (l.reverse ++ []) [] := linesFrom_unbroken h
  rw [List.append_nil, List.append_nil] at hstep
  rw [lines, hstep, linesFrom, List.reverse_reverse, if_neg (by simpa using hne)]

/-- A line that is read off a text holds no break. -/
theorem unbroken_of_mem_lines (h : l ∈ lines cs) : Unbroken l := by
  suffices hfrom : ∀ current, Unbroken current → l ∈ linesFrom current cs → Unbroken l from
    hfrom [] unbroken_nil h
  clear h
  intro current hcurrent hmem
  have hreverse : ∀ {l : List Char}, Unbroken l → Unbroken l.reverse :=
    fun hl c hc => hl c (List.mem_reverse.mp hc)
  fun_induction linesFrom current cs with
  | case1 current hnone => cases hmem
  | case2 current hsome =>
    obtain rfl := List.mem_singleton.mp hmem
    exact hreverse hcurrent
  | case3 current rest ih =>
    rcases List.mem_cons.mp hmem with rfl | hrest
    · exact hreverse hcurrent
    · exact ih unbroken_nil hrest
  | case4 current c rest _ hbreak ih =>
    rcases List.mem_cons.mp hmem with rfl | hrest
    · exact hreverse hcurrent
    · exact ih unbroken_nil hrest
  | case5 current c rest _ hbreak ih =>
    exact ih (unbroken_cons.mpr ⟨by simpa using hbreak, hcurrent⟩) hmem

theorem lines_written_append (h : ∀ l ∈ ls, Unbroken l) (rest : List Char) :
    lines (written ls ++ rest) = ls ++ lines rest := by
  induction ls with
  | nil => rfl
  | cons l ls ih =>
    have hsplit : written (l :: ls) ++ rest = l ++ '\n' :: (written ls ++ rest) := by
      simp [written]
    rw [hsplit, lines_line (h l List.mem_cons_self),
      ih fun m hm => h m (List.mem_cons_of_mem l hm)]
    rfl

theorem lines_written (h : ∀ l ∈ ls, Unbroken l) : lines (written ls) = ls := by
  have hread := lines_written_append h []
  rwa [List.append_nil, lines, lines, linesFrom, if_pos (by rfl), List.append_nil] at hread

/-- What is cut out between separators holds none. -/
theorem not_of_mem_splitOnP {α : Type} {p : α → Bool} {xs w : List α} (h : w ∈ xs.splitOnP p) :
    ∀ x ∈ w, p x = false := by
  induction xs generalizing w with
  | nil =>
    obtain rfl : w = [] := by simpa using h
    nofun
  | cons y ys ih =>
    rw [List.splitOnP_cons_eq_if_modifyHead] at h
    split at h
    · rcases List.mem_cons.mp h with rfl | hrest
      · nofun
      · exact ih hrest
    · next hy =>
      obtain ⟨first, others, hsplit⟩ := List.exists_cons_of_ne_nil (List.splitOnP_ne_nil p ys)
      rw [hsplit] at ih h
      rcases List.mem_cons.mp h with rfl | hothers
      · intro x hx
        rcases List.mem_cons.mp hx with rfl | hx
        · simpa using hy
        · exact ih List.mem_cons_self x hx
      · exact ih (List.mem_cons_of_mem first hothers)

theorem newline_notMem_of_mem_splitOn (h : l ∈ cs.splitOn '\n') : '\n' ∉ l := fun hmem => by
  simpa using not_of_mem_splitOnP h '\n' hmem

theorem splitOn_joined (h : ∀ l ∈ ls, '\n' ∉ l) (hne : ls ≠ []) : (joined ls).splitOn '\n' = ls :=
  List.splitOn_intercalate '\n' h hne

theorem joined_splitOn (cs : List Char) : joined (cs.splitOn '\n') = cs :=
  List.intercalate_splitOn '\n'

theorem joined_cons (l : List Char) (hne : ls ≠ []) :
    joined (l :: ls) = l ++ '\n' :: joined ls := by
  rw [joined, List.intercalate_cons_of_ne_nil hne, List.append_assoc]
  rfl

theorem mem_joined {l : List Char} (hl : l ∈ ls) (hc : c ∈ l) : c ∈ joined ls := by
  induction ls with
  | nil => cases hl
  | cons m ls ih =>
    by_cases hne : ls = []
    · subst hne
      obtain rfl := List.mem_singleton.mp hl
      simpa using hc
    · rw [joined_cons m hne]
      rcases List.mem_cons.mp hl with rfl | hrest
      · exact List.mem_append_left _ hc
      · exact List.mem_append_right _ (List.mem_cons_of_mem _ (ih hrest))

theorem eq_or_mem_of_mem_joined (hc : c ∈ joined ls) : c = '\n' ∨ ∃ l ∈ ls, c ∈ l := by
  induction ls with
  | nil => cases hc
  | cons m ls ih =>
    by_cases hne : ls = []
    · subst hne
      exact .inr ⟨m, List.mem_cons_self, by simpa using hc⟩
    · rw [joined_cons m hne] at hc
      rcases List.mem_append.mp hc with hm | hrest
      · exact .inr ⟨m, List.mem_cons_self, hm⟩
      rcases List.mem_cons.mp hrest with rfl | hrest
      · exact .inl rfl
      · refine (ih hrest).imp_right fun ⟨l, hl, hcl⟩ => ⟨l, List.mem_cons_of_mem m hl, hcl⟩

/-- A text with no breaks but line feeds is cut into lines at those. -/
theorem unbroken_of_mem_splitOn (h : ∀ c ∈ cs, isLineBreak c = true → c = '\n')
    (hl : l ∈ cs.splitOn '\n') : Unbroken l := by
  intro c hc
  refine Bool.eq_false_iff.mpr fun hbreak => ?_
  have hmem : c ∈ cs := joined_splitOn cs ▸ mem_joined hl hc
  obtain rfl := h c hmem hbreak
  exact newline_notMem_of_mem_splitOn hl hc

theorem joined_append (hne : ls ≠ []) {ms : List (List Char)} (hms : ms ≠ []) :
    joined (ls ++ ms) = joined ls ++ '\n' :: joined ms := by
  induction ls with
  | nil => contradiction
  | cons l ls ih =>
    cases ls with
    | nil => exact (joined_cons l hms).trans (by simp)
    | cons m ls =>
      rw [List.cons_append, joined_cons l (by simp), ih (by simp), joined_cons l (by simp),
        List.append_assoc]
      rfl

theorem joined_newline (hne : ls ≠ []) : joined ls ++ ['\n'] = written ls := by
  induction ls with
  | nil => contradiction
  | cons l ls ih =>
    cases ls with
    | nil => simp [written]
    | cons m ls =>
      rw [joined_cons l (by simp), List.append_assoc, List.cons_append, ih (by simp)]
      simp [written]

/-- Joined lines are read back, but for an empty one at the end. -/
theorem lines_joined (h : ∀ l ∈ ls, Unbroken l) :
    lines (joined ls) = ls ∨ lines (joined ls) ++ [[]] = ls := by
  rcases List.eq_nil_or_concat ls with rfl | ⟨ms, l, rfl⟩
  · exact .inl rfl
  have hl : Unbroken l := h l (by simp)
  have hms : ∀ m ∈ ms, Unbroken m := fun m hm => h m (by simp [hm])
  have hread : lines (joined (ms ++ [l])) = ms ++ lines l := by
    by_cases hne : ms = []
    · simp [hne]
    · have hlast : joined (ms ++ [l]) = joined ms ++ ['\n'] ++ l := by
        simp [joined_append hne]
      rw [hlast, joined_newline hne, lines_written_append hms]
  rw [List.concat_eq_append, hread]
  by_cases hne : l = []
  · exact .inr (by simp [hne, lines, linesFrom])
  · exact .inl (by rw [lines_last hl hne])

/-- A text whose lines are all ended keeps them before a text that does not begin with a line
feed; a carriage return at the end of the one would make one break with it. -/
theorem lines_append (h : IsEnded cs) (hrest : rest.head? ≠ some '\n') :
    lines (cs ++ rest) = lines cs ++ lines rest := by
  -- An empty text has no line under way, but what was read before `cs` may have one.
  suffices hfrom : ∀ current, (cs = [] → current = []) →
      linesFrom current (cs ++ rest) = linesFrom current cs ++ lines rest from hfrom [] fun _ => rfl
  intro current hcurrent
  fun_induction linesFrom current cs with
  | case1 current hnone =>
    obtain rfl := hcurrent rfl
    rfl
  | case2 current hsome =>
    obtain rfl := hcurrent rfl
    exact absurd rfl hsome
  | case3 current more ih =>
    rw [List.cons_append, List.cons_append, linesFrom, ih h.tail.tail fun _ => rfl]
    rfl
  | case4 current c more hpair hbreak ih =>
    rw [List.cons_append, linesFrom, if_pos hbreak, ih h.tail fun _ => rfl]
    · rfl
    · rintro tail rfl heq
      cases more with
      | nil => exact hrest (by simpa using congrArg List.head? heq)
      | cons d more =>
        obtain ⟨rfl, -⟩ := List.cons.inj heq
        exact hpair more rfl rfl
  | case5 current c more hpair hbreak ih =>
    have hne : more ≠ [] := by
      rintro rfl
      exact hbreak (h c (by simp))
    rw [List.cons_append, linesFrom_of_not_break (by simpa using hbreak)]
    exact ih h.tail fun hnil => absurd hnil hne

/-- A text is its ended lines and what stands after them. -/
theorem exists_last_line (cs : List Char) :
    ∃ before l, cs = before ++ l ∧ IsEnded before ∧ Unbroken l := by
  let p : Char → Bool := fun c => !isLineBreak c
  refine ⟨cs.rdropWhile p, cs.rtakeWhile p, List.rdropWhile_append_rtakeWhile.symm,
    fun c hc => ?_, fun c hc => ?_⟩
  · obtain ⟨hne, rfl⟩ := List.mem_getLast?_eq_getLast hc
    simpa [p] using List.rdropWhile_last_not p cs hne
  · simpa [p] using List.mem_rtakeWhile_imp hc

/-- A last line that is not ended is the same line when it is. -/
theorem lines_newline (h : ¬ IsEnded cs) : lines (cs ++ ['\n']) = lines cs := by
  obtain ⟨before, l, rfl, hbefore, hl⟩ := exists_last_line cs
  obtain ⟨c, l, rfl⟩ : ∃ c l', l = c :: l' := by
    refine List.exists_cons_of_ne_nil ?_
    rintro rfl
    exact h (by rwa [List.append_nil])
  have hc : c ≠ '\n' := fun heq => hl.newline_notMem (heq ▸ List.mem_cons_self)
  rw [List.append_assoc, lines_append hbefore (by simpa using hc), lines_append hbefore
    (by simpa using hc), lines_line hl, lines_last hl (by simp)]
  rfl

end

end DecisionGate.Text
