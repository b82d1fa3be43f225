import DecisionGate.Criteria.Snake
import Mathlib.Data.List.Chain
import Mathlib.Data.List.DropRight
import DecisionGate.Proofs.Lines

/-!
# Names as lists of words

A name comes down to its words, which are small letters and digits, with one underscore between any
two. What stands between words is never seen: a gap, such as a blank or an underscore, ends a word
and begins none, and no camel case is split across it. So the words of two texts with a gap between
them are the words of the one and then those of the other, and everything about names in snake case
follows from this.
-/
namespace DecisionGate.Criteria

/-- What a name keeps of a character: a small letter or a digit as it is, else an underscore. -/
def mask (c : Char) : Char := if isSmall c then c else '_'

@[simp] theorem isSmall_mask (c : Char) : isSmall (mask c) = isSmall c := by
  unfold mask
  split
  · rfl
  · next hc => exact (Bool.eq_false_iff.mpr hc).symm

theorem mask_of_isSmall {c : Char} (h : isSmall c = true) : mask c = c := if_pos h

/-- What a name keeps of the small form of a character. -/
def smallForm (c : Char) : List Char := (Text.lowerChar c).map mask

/-- A sigma has two small forms by what stands around it, and neither is a letter of a name. -/
theorem map_mask_lowerFrom (before cs : List Char) :
    (Text.lowerFrom before cs).map mask = cs.flatMap smallForm := by
  induction cs generalizing before with
  | nil => rfl
  | cons c rest ih =>
    have hsigma : smallForm 'Σ' = ['_'] := by decide +kernel
    simp only [Text.lowerFrom, List.map_append, ih, List.flatMap_cons]
    congr 1
    split
    · next hc =>
      subst hc
      rw [hsigma]
      split <;> rfl
    · rfl

theorem collapse_map_mask (inRun : Bool) (cs : List Char) :
    collapse inRun (cs.map mask) = collapse inRun cs := by
  induction cs generalizing inRun with
  | nil => rfl
  | cons c rest ih =>
    simp only [List.map_cons, collapse, isSmall_mask, ih]
    split
    · next hc => rw [mask_of_isSmall hc]
    · rfl

/-- The runs of small letters and digits. -/
def runs (cs : List Char) : List (List Char) :=
  (cs.splitOnP fun c => !isSmall c).filter fun w => !w.isEmpty

theorem runs_append_cons {c : Char} (hc : isSmall c = false) (cs ds : List Char) :
    runs (cs ++ c :: ds) = runs cs ++ runs ds := by
  rw [runs, List.splitOnP_append_cons cs ds (by simp [hc]), List.filter_append]
  rfl

@[simp] theorem runs_nil : runs [] = [] := rfl

theorem runs_of_isSmall {w : List Char} (hne : w ≠ []) (hw : ∀ c ∈ w, isSmall c = true) :
    runs w = [w] := by
  rw [runs, List.splitOnP_eq_singleton fun c hc => by simp [hw c hc]]
  simp [hne]

theorem isSmall_of_mem_splitOnP {cs w : List Char} (h : w ∈ cs.splitOnP fun c => !isSmall c) :
    ∀ c ∈ w, isSmall c = true := fun c hc => by
  simpa using Text.not_of_mem_splitOnP h c hc

/-- A word as it stands in a name. -/
structure IsWord (w : List Char) : Prop where
  nonempty : w ≠ []
  small : ∀ c ∈ w, isSmall c = true

theorem isWord_of_mem_runs {cs w : List Char} (h : w ∈ runs cs) : IsWord w := by
  obtain ⟨hmem, hne⟩ := List.mem_filter.mp h
  exact ⟨by simpa using hne, isSmall_of_mem_splitOnP hmem⟩

/-- Words with an underscore between any two. -/
def joined (ws : List (List Char)) : List Char := ['_'].intercalate ws

theorem joined_cons {w : List Char} {ws : List (List Char)} (hne : ws ≠ []) :
    joined (w :: ws) = w ++ '_' :: joined ws := by
  rw [joined, List.intercalate_cons_of_ne_nil hne, List.append_assoc]
  rfl

theorem joined_singleton (w : List Char) : joined [w] = w := List.intercalate_singleton

theorem joined_ne_nil {ws : List (List Char)} (h : ∀ w ∈ ws, IsWord w) (hne : ws ≠ []) :
    joined ws ≠ [] := by
  obtain ⟨w, rest, rfl⟩ := List.exists_cons_of_ne_nil hne
  obtain ⟨c, tail, rfl⟩ := List.exists_cons_of_ne_nil (h w List.mem_cons_self).nonempty
  rw [joined, List.intercalate_cons_cons_left]
  simp

theorem ne_underscore_of_isSmall {c : Char} (h : isSmall c = true) : (c == '_') = false := by
  rw [beq_eq_false_iff_ne]
  rintro rfl
  exact absurd h (by decide)

/-- Without the underscore that it may begin with, it does not matter whether a run was open. -/
theorem dropWhile_collapse (inRun : Bool) (cs : List Char) :
    (collapse inRun cs).dropWhile (· == '_') = collapse true cs := by
  induction cs generalizing inRun with
  | nil => rfl
  | cons c rest ih =>
    by_cases hc : isSmall c = true
    · simp only [collapse, hc, if_true, List.dropWhile_cons, ne_underscore_of_isSmall hc]
      rfl
    · cases inRun with
      | true => simpa only [collapse, hc, Bool.false_eq_true, if_false, if_true] using ih true
      | false =>
        simp only [collapse, hc, Bool.false_eq_true, if_false, if_true, List.dropWhile_cons]
        simpa using ih true

theorem rdropWhile_append {α : Type} (p : α → Bool) (xs ys : List α) :
    (xs ++ ys).rdropWhile p =
      if ys.rdropWhile p = [] then xs.rdropWhile p else xs ++ ys.rdropWhile p := by
  rw [List.rdropWhile, List.reverse_append, List.dropWhile_append]
  simp only [List.rdropWhile, List.isEmpty_iff, List.reverse_eq_nil_iff]
  split
  · rfl
  · rw [List.reverse_append, List.reverse_reverse]

theorem rdropWhile_of_isSmall {w : List Char} (h : ∀ c ∈ w, isSmall c = true) :
    w.rdropWhile (· == '_') = w := by
  rw [List.rdropWhile_eq_self_iff]
  intro hne
  simp [ne_underscore_of_isSmall (h _ (List.getLast_mem hne))]

/-- Behind a word that is open the rest of it comes first. -/
theorem rdropWhile_collapse (cs : List Char) :
    (∀ w, IsWord w → (w ++ collapse false cs).rdropWhile (· == '_') = joined (runs (w ++ cs))) ∧
      (collapse true cs).rdropWhile (· == '_') = joined (runs cs) := by
  induction cs with
  | nil =>
    refine ⟨fun w hw => ?_, rfl⟩
    simp only [collapse, List.append_nil]
    rw [rdropWhile_of_isSmall hw.small, runs_of_isSmall hw.nonempty hw.small]
    exact (joined_singleton w).symm
  | cons c rest ih =>
    obtain ⟨ihopen, ihclosed⟩ := ih
    by_cases hc : isSmall c = true
    · have hone : IsWord [c] := ⟨by simp, by simpa using hc⟩
      refine ⟨fun w hw => ?_, ?_⟩
      · have hmore : IsWord (w ++ [c]) := by
          refine ⟨by simp, fun d hd => ?_⟩
          rcases List.mem_append.mp hd with hd | hd
          · exact hw.small d hd
          · exact hone.small d hd
        simpa [collapse, hc] using ihopen (w ++ [c]) hmore
      · simpa [collapse, hc] using ihopen [c] hone
    · have hgap : isSmall c = false := Bool.eq_false_iff.mpr hc
      refine ⟨fun w hw => ?_, ?_⟩
      · simp only [collapse, hgap, Bool.false_eq_true, if_false]
        rw [runs_append_cons hgap, runs_of_isSmall hw.nonempty hw.small,
          List.append_cons, rdropWhile_append, ihclosed]
        by_cases hnone : runs rest = []
        · rw [hnone, if_pos (by rfl), List.rdropWhile_concat_pos _ _ _ (by rfl),
            rdropWhile_of_isSmall hw.small]
          exact (joined_singleton w).symm
        · rw [if_neg (joined_ne_nil (fun _ => isWord_of_mem_runs) hnone)]
          simpa using (joined_cons hnone).symm
      · have hruns : runs (c :: rest) = runs rest := runs_append_cons hgap [] rest
        simpa only [collapse, hgap, Bool.false_eq_true, if_false, if_true, hruns] using ihclosed

/-- A character that ends a word and begins none. -/
def IsGap (c : Char) : Prop := isSmall c = false ∧ isCapital c = false ∧ smallForm c = ['_']

instance : DecidablePred IsGap := fun _ => inferInstanceAs (Decidable (_ ∧ _ ∧ _))

theorem isGap_of_isBlank {c : Char} (h : Text.isBlank c = true) : IsGap c := by
  have hall : ∀ n ∈ Text.blanks, IsGap (Char.ofNat n) := by decide +kernel
  have hc := hall c.toNat (by simpa [Text.isBlank] using h)
  rwa [Char.ofNat_toNat] at hc

theorem splitCamel_append_cons {c : Char} (hc : IsGap c) (previous : Bool) (cs ds : List Char) :
    splitCamel previous (cs ++ c :: ds) = splitCamel previous cs ++ c :: splitCamel false ds := by
  induction cs generalizing previous with
  | nil => simp [splitCamel, hc.1, hc.2.1]
  | cons d rest ih =>
    simp only [List.cons_append, splitCamel, ih]
    split <;> rfl

/-- The words of a text. -/
def words (cs : List Char) : List (List Char) := runs ((splitCamel false cs).flatMap smallForm)

theorem words_append_cons {c : Char} (hc : IsGap c) (cs ds : List Char) :
    words (cs ++ c :: ds) = words cs ++ words ds := by
  rw [words, splitCamel_append_cons hc, List.flatMap_append, List.flatMap_cons, hc.2.2]
  exact runs_append_cons (by decide) _ _

@[simp] theorem words_nil : words [] = [] := rfl

theorem words_cons {c : Char} (hc : IsGap c) (cs : List Char) : words (c :: cs) = words cs :=
  words_append_cons hc [] cs

theorem words_concat {c : Char} (hc : IsGap c) (cs : List Char) :
    words (cs ++ [c]) = words cs := by
  simpa using words_append_cons hc cs []

theorem words_dropWhile (cs : List Char) : words (cs.dropWhile Text.isBlank) = words cs := by
  induction cs with
  | nil => rfl
  | cons c rest ih =>
    rw [List.dropWhile_cons]
    split
    · next hc => rw [ih, words_cons (isGap_of_isBlank hc)]
    · rfl

theorem words_rdropWhile (cs : List Char) : words (cs.rdropWhile Text.isBlank) = words cs := by
  induction cs using List.reverseRecOn with
  | nil => rfl
  | append_singleton rest c ih =>
    rw [List.rdropWhile_concat]
    split
    · next hc => rw [ih, words_concat (isGap_of_isBlank hc)]
    · rfl

theorem words_trim (cs : List Char) : words (Text.trim cs) = words cs := by
  rw [Text.trim, Text.trimBy, ← List.rdropWhile, words_rdropWhile, words_dropWhile]

/-- A name is its words. -/
theorem snakeChars_eq (cs : List Char) : snakeChars cs = joined (words cs) := by
  rw [snakeChars, Text.trimBy, ← List.rdropWhile, dropWhile_collapse, ← collapse_map_mask,
    Text.lower, map_mask_lowerFrom, (rdropWhile_collapse _).2, ← words, words_trim]

theorem isWord_of_mem_words {cs w : List Char} (h : w ∈ words cs) : IsWord w :=
  isWord_of_mem_runs h

theorem isSmall_spec {c : Char} (h : isSmall c = true) :
    isCapital c = false ∧ smallForm c = [c] := by
  have hascii : c.toNat < 128 := by
    simp only [isSmall, Bool.or_eq_true, Bool.and_eq_true, decide_eq_true_eq, Char.le_def,
      UInt32.le_iff_toNat_le] at h
    simp only [Char.toNat]
    rcases h with ⟨-, h⟩ | ⟨-, h⟩ <;> exact lt_of_le_of_lt h (by decide)
  have hall : ∀ n < 128, isSmall (Char.ofNat n) = true →
      isCapital (Char.ofNat n) = false ∧ smallForm (Char.ofNat n) = [Char.ofNat n] := by
    decide +kernel
  have hc := hall c.toNat hascii
  rw [Char.ofNat_toNat] at hc
  exact hc h

theorem words_of_isWord {w : List Char} (h : IsWord w) : words w = [w] := by
  have hsplit : ∀ previous, ∀ cs : List Char, (∀ c ∈ cs, isSmall c = true) →
      splitCamel previous cs = cs ∧ cs.flatMap smallForm = cs := by
    intro previous cs hcs
    induction cs generalizing previous with
    | nil => exact ⟨rfl, rfl⟩
    | cons c rest ih =>
      obtain ⟨hcapital, hform⟩ := isSmall_spec (hcs c List.mem_cons_self)
      have hrest := fun p => ih p fun d hd => hcs d (List.mem_cons_of_mem c hd)
      refine ⟨?_, ?_⟩
      · simp [splitCamel, hcapital, (hrest _).1]
      · simp [hform, (hrest true).2]
  obtain ⟨hcamel, hform⟩ := hsplit false w h.small
  rw [words, hcamel, hform, runs_of_isSmall h.nonempty h.small]

theorem isGap_underscore : IsGap '_' := by decide +kernel

theorem isGap_space : IsGap ' ' := by decide +kernel

theorem words_joined {ws : List (List Char)} (h : ∀ w ∈ ws, IsWord w) : words (joined ws) = ws := by
  induction ws with
  | nil => rfl
  | cons w rest ih =>
    have hw := words_of_isWord (h w List.mem_cons_self)
    have hrest := ih fun v hv => h v (List.mem_cons_of_mem w hv)
    by_cases hnone : rest = []
    · rw [hnone, joined_singleton, hw]
    · rw [joined_cons hnone, words_append_cons isGap_underscore, hw, hrest]
      rfl

/-- The words of some texts with a gap between any two are all their words. -/
theorem words_intercalate {c : Char} (hc : IsGap c) (texts : List (List Char)) :
    words ([c].intercalate texts) = texts.flatMap words := by
  induction texts with
  | nil => rfl
  | cons t rest ih =>
    by_cases hnone : rest = []
    · rw [hnone, List.intercalate_singleton]
      simp
    · rw [List.intercalate_cons_of_ne_nil hnone, List.append_assoc, List.singleton_append,
        words_append_cons hc, ih, List.flatMap_cons]

theorem joined_eq_nil_iff {ws : List (List Char)} (h : ∀ w ∈ ws, IsWord w) :
    joined ws = [] ↔ ws = [] := by
  constructor
  · exact fun hnil => by_contra fun hne => joined_ne_nil h hne hnil
  · rintro rfl
    rfl

theorem joined_append {ws vs : List (List Char)} (hws : ws ≠ []) (hvs : vs ≠ []) :
    joined (ws ++ vs) = joined ws ++ '_' :: joined vs := by
  induction ws with
  | nil => exact absurd rfl hws
  | cons w rest ih =>
    by_cases hnone : rest = []
    · rw [hnone, joined_singleton]
      exact joined_cons hvs
    · rw [List.cons_append, joined_cons (by simp [hnone]), ih hnone, joined_cons hnone]
      simp

/-- Names with an underscore between any two are the name of all their words. -/
theorem joined_map_joined {names : List (List (List Char))} (h : ∀ ws ∈ names, ws ≠ []) :
    joined (names.map joined) = joined names.flatten := by
  induction names with
  | nil => rfl
  | cons ws rest ih =>
    have hws := h ws List.mem_cons_self
    have hrest := fun vs hvs => h vs (List.mem_cons_of_mem ws hvs)
    by_cases hnone : rest = []
    · rw [hnone, List.map_singleton, joined_singleton, List.flatten_singleton]
    · have hflat : rest.flatten ≠ [] := by
        obtain ⟨vs, others, rfl⟩ := List.exists_cons_of_ne_nil hnone
        simp [hrest vs List.mem_cons_self]
      rw [List.map_cons, joined_cons (by simpa using hnone), ih hrest, List.flatten_cons,
        joined_append hws hflat]

theorem toSnake_eq (name : String) : toSnake name = String.ofList (joined (words name.toList)) := by
  rw [toSnake, snakeChars_eq]

theorem words_toSnake (name : String) : words (toSnake name).toList = words name.toList := by
  rw [toSnake_eq, String.toList_ofList, words_joined fun _ => isWord_of_mem_words]

theorem toSnake_toSnake (name : String) : toSnake (toSnake name) = toSnake name := by
  rw [toSnake_eq, words_toSnake, ← toSnake_eq]

/-- Small letters and digits, with single underscores in between. -/
structure IsSnake (cs : List Char) : Prop where
  letters : ∀ c ∈ cs, isSmall c = true ∨ c = '_'
  single : cs.IsChain fun c d => c ≠ '_' ∨ d ≠ '_'
  first : cs.head? ≠ some '_'
  last : cs.getLast? ≠ some '_'

theorem IsWord.isSnake {w : List Char} (h : IsWord w) : IsSnake w := by
  have hne : ∀ c ∈ w, c ≠ '_' := fun c hc =>
    beq_eq_false_iff_ne.mp (ne_underscore_of_isSmall (h.small c hc))
  exact {
    letters := fun c hc => .inl (h.small c hc)
    single := by
      refine List.Pairwise.isChain (List.pairwise_of_forall_mem_list fun c hc d _ => ?_)
      exact .inl (hne c hc)
    first := fun hfirst => hne _ (List.mem_of_head? hfirst) rfl
    last := fun hlast => hne _ (List.mem_of_getLast? hlast) rfl }

/-- An underscore after a word and before a name. -/
theorem IsWord.isSnake_append {w name : List Char} (h : IsWord w) (hname : IsSnake name)
    (hne : name ≠ []) : IsSnake (w ++ '_' :: name) := by
  have hw := h.isSnake
  exact {
    letters := by
      intro c hc
      rcases List.mem_append.mp hc with hc | hc
      · exact hw.letters c hc
      · rcases List.mem_cons.mp hc with rfl | hc
        · exact .inr rfl
        · exact hname.letters c hc
    single := by
      refine hw.single.append (List.isChain_cons.mpr ⟨fun d hd => .inr ?_, hname.single⟩) ?_
      · rintro rfl
        exact hname.first hd
      · intro c hc d hd
        refine .inl ?_
        rintro rfl
        exact hw.last hc
    first := by
      obtain ⟨c, tail, rfl⟩ := List.exists_cons_of_ne_nil h.nonempty
      exact hw.first
    last := by
      rw [List.getLast?_append_of_ne_nil _ (by simp), List.getLast?_cons_of_ne_nil hne]
      exact hname.last }

theorem isSnake_joined {ws : List (List Char)} (h : ∀ w ∈ ws, IsWord w) : IsSnake (joined ws) := by
  induction ws with
  | nil => exact ⟨nofun, .nil, nofun, nofun⟩
  | cons w rest ih =>
    have hw := h w List.mem_cons_self
    have hrest := fun v hv => h v (List.mem_cons_of_mem w hv)
    by_cases hnone : rest = []
    · rw [hnone, joined_singleton]
      exact hw.isSnake
    · rw [joined_cons hnone]
      exact hw.isSnake_append (ih hrest) (joined_ne_nil hrest hnone)

theorem isSnake_toSnake (name : String) : IsSnake (toSnake name).toList := by
  rw [toSnake_eq, String.toList_ofList]
  exact isSnake_joined fun _ => isWord_of_mem_words

theorem toSnake_eq_empty_iff {name : String} : toSnake name = "" ↔ words name.toList = [] := by
  rw [toSnake_eq, ← joined_eq_nil_iff (fun _ => isWord_of_mem_words), ← String.ofList_nil,
    String.ofList_inj]

/-- A phrase of some texts, by whatever single gap, is named by the names of the texts. -/
theorem toSnake_phrase {gap : Char} (hgap : IsGap gap) {texts : List String}
    (h : ∀ t ∈ texts, toSnake t ≠ "") :
    toSnake ((String.singleton gap).intercalate texts) = "_".intercalate (texts.map toSnake) := by
  have hwords : ∀ ws ∈ texts.map fun t => words t.toList, ws ≠ [] := by
    intro ws hws
    obtain ⟨t, ht, rfl⟩ := List.mem_map.mp hws
    exact toSnake_eq_empty_iff.not.mp (h t ht)
  have hnames : (texts.map toSnake).map String.toList =
      (texts.map fun t => words t.toList).map joined := by
    simp [toSnake_eq]
  have hright : ("_".intercalate (texts.map toSnake)).toList =
      joined (texts.map fun t => words t.toList).flatten := by
    rw [String.toList_intercalate, hnames]
    exact joined_map_joined hwords
  rw [toSnake_eq, String.toList_intercalate, String.toList_singleton, words_intercalate hgap,
    List.flatMap_map, List.flatMap_def, ← hright, String.ofList_toList]

end DecisionGate.Criteria
