import Mathlib.Data.List.DropRight
import DecisionGate.Mind.Sections
import DecisionGate.Proofs.Lines

/-!
# Fenced blocks

What the search for a block finds stands between an opening and a closing. The search can be
followed line by line: a block begins after the first line that ends in an opening, whatever that
line begins with, and it ends before the next line that begins with a fence, so it is made of whole
lines. Blanks at the ends of a text are nothing to it.
-/
namespace DecisionGate.Mind

open Text

/-- The openings without their line feeds. -/
def marks : List (List Char) := [fence ++ "yaml".toList, fence ++ "yml".toList]

/-- Whether a line ends in an opening. -/
def opens (l : List Char) : Bool := marks.any (·.isSuffixOf l)

/-- The first block of a text. -/
def found? (cs : List Char) : Option (List Char) := (blockStart? cs).bind beforeClosing?

theorem block?_eq (body : String) : block? body = (found? body.toList).map String.ofList := rfl

section
variable {c : Char} {l cs rest b : List Char} {ls : List (List Char)}

theorem openings_eq : openings = marks.map (· ++ ['\n']) := rfl

theorem newline_notMem_of_mem_marks : ∀ m ∈ marks, '\n' ∉ m := by decide

theorem afterOpening?_eq_some : afterOpening? cs = some rest ↔ ∃ o ∈ openings, cs = o ++ rest := by
  constructor
  · intro h
    obtain ⟨o, ho, rfl⟩ := Option.map_eq_some_iff.mp h
    have hprefix : o.isPrefixOf cs = true := by simpa using List.find?_some ho
    exact ⟨o, List.mem_of_find?_eq_some ho,
      (List.prefix_iff_eq_append.mp (List.isPrefixOf_iff_prefix.mp hprefix)).symm⟩
  · rintro ⟨o, ho, rfl⟩
    simp only [openings, List.mem_cons, List.not_mem_nil, or_false] at ho
    rcases ho with rfl | rfl <;> rfl

theorem eq_of_blockStart? (h : blockStart? cs = some rest) :
    ∃ before, ∃ o ∈ openings, cs = before ++ (o ++ rest) := by
  induction cs with
  | nil => cases h
  | cons c cs ih =>
    rw [blockStart?] at h
    split at h
    · next hfound =>
      obtain ⟨o, ho, hcs⟩ := afterOpening?_eq_some.mp (hfound.trans h)
      exact ⟨[], o, ho, hcs⟩
    · obtain ⟨before, o, ho, hcs⟩ := ih h
      exact ⟨c :: before, o, ho, congrArg (c :: ·) hcs⟩

theorem eq_of_beforeClosing? (h : beforeClosing? cs = some b) :
    ∃ rest, cs = b ++ (closing ++ rest) := by
  induction cs generalizing b with
  | nil => cases h
  | cons c cs ih =>
    rw [beforeClosing?] at h
    split at h
    · next hclosing =>
      obtain rfl := Option.some.inj h
      obtain ⟨rest, hrest⟩ := List.isPrefixOf_iff_prefix.mp hclosing
      exact ⟨rest, hrest.symm⟩
    · obtain ⟨b', hb', rfl⟩ := Option.map_eq_some_iff.mp h
      obtain ⟨rest, hrest⟩ := ih hb'
      exact ⟨rest, congrArg (c :: ·) hrest⟩

/-- Somewhere in a text a block is opened and, later, closed. -/
def HasBlock (cs : List Char) : Prop :=
  ∃ before b after, ∃ o ∈ openings, cs = before ++ (o ++ (b ++ (closing ++ after)))

theorem eq_of_found? (h : found? cs = some b) :
    ∃ before after, ∃ o ∈ openings, cs = before ++ (o ++ (b ++ (closing ++ after))) := by
  obtain ⟨rest, hstart, hclosed⟩ := Option.bind_eq_some_iff.mp h
  obtain ⟨before, o, ho, rfl⟩ := eq_of_blockStart? hstart
  obtain ⟨after, rfl⟩ := eq_of_beforeClosing? hclosed
  exact ⟨before, after, o, ho, rfl⟩

theorem not_hasBlock (h : '\x60' ∉ cs) : ¬ HasBlock cs := by
  rintro ⟨before, b, after, o, -, rfl⟩
  exact h (by simp [closing, fence])

theorem found?_eq_none (h : ¬ HasBlock cs) : found? cs = none := by
  cases hfound : found? cs with
  | none => rfl
  | some b =>
    obtain ⟨before, after, hblock⟩ := eq_of_found? hfound
    exact absurd ⟨before, b, after, hblock⟩ h

/-- The lines of a block are lines of the text. -/
theorem mem_of_mem_found? (hls : ∀ l ∈ ls, '\n' ∉ l) (h : found? (joined ls) = some b)
    (hl : l ∈ b.splitOn '\n') : l ∈ ls := by
  obtain ⟨before, after, o, ho, heq⟩ := eq_of_found? h
  rw [openings_eq] at ho
  obtain ⟨m, -, rfl⟩ := List.mem_map.mp ho
  have hcut : joined ls = (before ++ m) ++ '\n' :: (b ++ '\n' :: (fence ++ after)) := by
    simpa [closing] using heq
  have hne : ls ≠ [] := by
    rintro rfl
    simp at hcut
  rw [← splitOn_joined hls hne, hcut, List.splitOn,
    List.splitOnP_append_cons _ _ (by simp), List.splitOnP_append_cons _ _ (by simp)]
  simp only [List.mem_append]
  exact .inr (.inl hl)

theorem afterOpening?_line (h : '\n' ∉ l) :
    afterOpening? (l ++ '\n' :: rest) = if l ∈ marks then some rest else none := by
  split
  case isTrue hmark =>
    have ho : l ++ ['\n'] ∈ openings := openings_eq ▸ List.mem_map_of_mem (f := (· ++ ['\n'])) hmark
    exact afterOpening?_eq_some.mpr ⟨l ++ ['\n'], ho, by simp⟩
  case isFalse hmark =>
    refine Option.eq_none_iff_forall_ne_some.mpr fun r hr => ?_
    obtain ⟨o, ho, heq⟩ := afterOpening?_eq_some.mp hr
    rw [openings_eq] at ho
    obtain ⟨m, hm, rfl⟩ := List.mem_map.mp ho
    rw [List.append_assoc, List.singleton_append] at heq
    obtain ⟨rfl, -⟩ := line_inj h (newline_notMem_of_mem_marks m hm) heq
    exact hmark hm

theorem opens_cons : opens (c :: l) = (decide (c :: l ∈ marks) || opens l) := by
  rw [Bool.eq_iff_iff]
  simp only [opens, List.any_eq_true, List.isSuffixOf_iff_suffix, List.suffix_cons_iff,
    Bool.or_eq_true, decide_eq_true_eq, and_or_left, exists_or, exists_eq_right]

theorem blockStart?_line (h : '\n' ∉ l) :
    blockStart? (l ++ '\n' :: rest) = if opens l then some rest else blockStart? rest := by
  induction l with
  | nil => rfl
  | cons c l ih =>
    have hstart : afterOpening? (c :: (l ++ '\n' :: rest)) =
        if c :: l ∈ marks then some rest else none := afterOpening?_line h
    rw [List.cons_append, blockStart?, hstart, opens_cons,
      ih fun hmem => h (List.mem_cons_of_mem c hmem)]
    by_cases hmark : c :: l ∈ marks <;> simp [hmark]

/-- There is no block in one line. -/
theorem blockStart?_eq_none (h : '\n' ∉ l) : blockStart? l = none := by
  refine Option.eq_none_iff_forall_ne_some.mpr fun r hr => h ?_
  obtain ⟨before, o, ho, rfl⟩ := eq_of_blockStart? hr
  rw [openings_eq] at ho
  obtain ⟨m, -, rfl⟩ := List.mem_map.mp ho
  simp

theorem blockStart?_written (hls : ∀ l ∈ ls, '\n' ∉ l) (h : ∀ l ∈ ls, opens l = false) :
    blockStart? (written ls ++ rest) = blockStart? rest := by
  induction ls with
  | nil => rfl
  | cons l ls ih =>
    have hsplit : written (l :: ls) ++ rest = l ++ '\n' :: (written ls ++ rest) := by
      simp [written]
    rw [hsplit, blockStart?_line (hls l List.mem_cons_self), h l List.mem_cons_self,
      ih (fun m hm => hls m (List.mem_cons_of_mem l hm))
        fun m hm => h m (List.mem_cons_of_mem l hm)]
    rfl

theorem beforeClosing?_line (h : '\n' ∉ l) :
    beforeClosing? (l ++ '\n' :: rest) =
      if fence <+: rest then some l else (beforeClosing? rest).map (l ++ '\n' :: ·) := by
  induction l with
  | nil =>
    have hclosing : closing.isPrefixOf ('\n' :: rest) = true ↔ fence <+: rest := by
      simp [closing]
    rw [List.nil_append, beforeClosing?]
    by_cases hfence : fence <+: rest
    · rw [if_pos (hclosing.mpr hfence), if_pos hfence]
    · rw [if_neg (mt hclosing.mp hfence), if_neg hfence]
      rfl
  | cons c l ih =>
    obtain ⟨hc, hl⟩ : '\n' ≠ c ∧ '\n' ∉ l := by simpa using h
    have hclosing : ¬ closing.isPrefixOf (c :: (l ++ '\n' :: rest)) = true := by
      simp [closing, hc]
    rw [List.cons_append, beforeClosing?, if_neg hclosing, ih hl]
    split
    · rfl
    · rw [Option.map_map]
      rfl

/-- A block of lines ends before the first line that begins with a fence. -/
theorem beforeClosing?_joined (hl : '\n' ∉ l) (hls : ∀ m ∈ ls, '\n' ∉ m)
    (hfence : ∀ m ∈ ls, ¬ fence <+: m) :
    beforeClosing? (joined (l :: ls) ++ '\n' :: (fence ++ rest)) = some (joined (l :: ls)) := by
  induction ls generalizing l with
  | nil =>
    rw [joined, List.intercalate_singleton, beforeClosing?_line hl,
      if_pos (List.prefix_append fence rest)]
  | cons m ls ih =>
    have hfirst : ¬ fence <+: joined (m :: ls) ++ '\n' :: (fence ++ rest) := by
      intro h
      refine hfence m List.mem_cons_self ?_
      cases ls with
      | nil => exact prefix_of_prefix_line (by decide) (by simpa using h)
      | cons k ls =>
        rw [joined_cons m (by simp), List.append_assoc, List.cons_append] at h
        exact prefix_of_prefix_line (by decide) h
    rw [joined_cons l (by simp), List.append_assoc, List.cons_append, beforeClosing?_line hl,
      if_neg hfirst, ih (hls m List.mem_cons_self) (fun k hk => hls k (List.mem_cons_of_mem m hk))
        fun k hk => hfence k (List.mem_cons_of_mem m hk)]
    rfl

/-- The first block of some lines: the lines after the first that ends in an opening, at least one,
up to a line that begins with a fence. -/
theorem found?_joined {above block below : List (List Char)} {o f : List Char}
    (hlines : ∀ k ∈ above ++ o :: (l :: block ++ f :: below), '\n' ∉ k)
    (habove : ∀ k ∈ above, opens k = false) (ho : opens o = true)
    (hblock : ∀ k ∈ block, ¬ fence <+: k) (hf : fence <+: f) :
    found? (joined (above ++ o :: (l :: block ++ f :: below))) = some (joined (l :: block)) := by
  have hfirst : joined (above ++ o :: (l :: block ++ f :: below)) =
      written above ++ (o ++ '\n' :: joined (l :: block ++ f :: below)) := by
    rw [← joined_cons o (by simp)]
    by_cases hnil : above = []
    · simp [hnil, written]
    · rw [joined_append hnil (by simp), ← joined_newline hnil, List.append_assoc]
      rfl
  obtain ⟨rest, hrest⟩ : ∃ rest, joined (f :: below) = fence ++ rest := by
    obtain ⟨t, rfl⟩ := hf
    by_cases hnil : below = []
    · exact ⟨t, by simp [hnil]⟩
    · exact ⟨t ++ '\n' :: joined below, by rw [joined_cons _ hnil, List.append_assoc]⟩
  rw [found?, hfirst, blockStart?_written (fun k hk => hlines k (by simp [hk])) habove,
    blockStart?_line (hlines o (by simp)), if_pos ho, Option.bind_some,
    joined_append (by simp) (by simp), hrest]
  exact beforeClosing?_joined (hlines l (by simp)) (fun k hk => hlines k (by simp [hk])) hblock

theorem afterOpening?_of_blank (h : isBlank c = true) : afterOpening? (c :: cs) = none := by
  refine Option.eq_none_iff_forall_ne_some.mpr fun r hr => ?_
  obtain ⟨o, ho, heq⟩ := afterOpening?_eq_some.mp hr
  have hhead : ∀ o ∈ openings, o.head? = some '\x60' := by decide
  have hc : some c = some '\x60' := by
    have hfirst := congrArg List.head? heq
    rwa [List.head?_append, hhead o ho] at hfirst
  obtain rfl := Option.some.inj hc
  contradiction

theorem blockStart?_dropWhile (cs : List Char) :
    blockStart? (cs.dropWhile isBlank) = blockStart? cs := by
  induction cs with
  | nil => rfl
  | cons c cs ih =>
    rw [List.dropWhile_cons]
    split
    · next hblank => rw [ih, blockStart?, afterOpening?_of_blank hblank]
    · rfl

/-- A character at the end of a text ends an opening only if that is the whole text. -/
theorem afterOpening?_concat (cs : List Char) (c : Char) :
    afterOpening? (cs ++ [c]) = (afterOpening? cs).map (· ++ [c]) ∨
      cs ∈ marks ∧ afterOpening? (cs ++ [c]) = some [] := by
  cases hlonger : afterOpening? (cs ++ [c]) with
  | none =>
    left
    cases hhere : afterOpening? cs with
    | none => rfl
    | some r =>
      obtain ⟨o, ho, rfl⟩ := afterOpening?_eq_some.mp hhere
      rw [afterOpening?_eq_some.mpr ⟨o, ho, List.append_assoc o r [c]⟩] at hlonger
      cases hlonger
  | some r =>
    obtain ⟨o, ho, heq⟩ := afterOpening?_eq_some.mp hlonger
    rcases List.eq_nil_or_concat r with rfl | ⟨r, d, rfl⟩
    · rw [openings_eq] at ho
      obtain ⟨m, hm, rfl⟩ := List.mem_map.mp ho
      rw [List.append_nil] at heq
      obtain ⟨rfl, -⟩ := List.append_inj' heq rfl
      exact .inr ⟨hm, rfl⟩
    · left
      rw [List.concat_eq_append, ← List.append_assoc] at heq
      obtain ⟨rfl, hlast⟩ := List.append_inj' heq rfl
      rw [afterOpening?_eq_some.mpr ⟨o, ho, rfl⟩, Option.map_some, hlast, List.concat_eq_append]

/-- Nor does it open a block that holds anything. -/
theorem blockStart?_concat (cs : List Char) (c : Char) :
    blockStart? (cs ++ [c]) = (blockStart? cs).map (· ++ [c]) ∨
      blockStart? cs = none ∧ blockStart? (cs ++ [c]) = some [] := by
  induction cs with
  | nil =>
    left
    rcases afterOpening?_concat [] c with hsame | ⟨hmark, -⟩
    · have hnone : afterOpening? [c] = none := hsame
      rw [List.nil_append, blockStart?.eq_def]
      simp only [hnone]
      rfl
    · exact absurd hmark (by decide)
  | cons d cs ih =>
    have hstart := afterOpening?_concat (d :: cs) c
    rw [List.cons_append] at hstart ⊢
    rw [blockStart?, blockStart?]
    rcases hstart with hsame | ⟨hmark, hempty⟩
    · rw [hsame]
      cases afterOpening? (d :: cs) with
      | some r => exact .inl rfl
      | none => exact ih
    · have hnone := blockStart?_eq_none (newline_notMem_of_mem_marks _ hmark)
      rw [blockStart?] at hnone
      exact .inr ⟨hnone, by rw [hempty]⟩

theorem beforeClosing?_concat (h : c ≠ '\x60') (cs : List Char) :
    beforeClosing? (cs ++ [c]) = beforeClosing? cs := by
  have hclosing : ∀ xs : List Char, closing <+: xs ++ [c] ↔ closing <+: xs := fun xs => by
    rw [List.prefix_concat_iff, or_iff_right]
    intro heq
    have hlast := congrArg List.getLast? heq
    rw [List.getLast?_concat] at hlast
    exact h (Option.some.inj hlast).symm
  induction cs with
  | nil =>
    refine Option.eq_none_iff_forall_ne_some.mpr fun b hb => ?_
    obtain ⟨rest, heq⟩ := eq_of_beforeClosing? hb
    have hlength := congrArg List.length heq
    simp [closing, fence] at hlength
    omega
  | cons d cs ih =>
    have hhere := hclosing (d :: cs)
    rw [List.cons_append] at hhere ⊢
    rw [beforeClosing?, beforeClosing?, ih]
    simp only [List.isPrefixOf_iff_prefix, hhere]

theorem found?_concat (h : isBlank c = true) (cs : List Char) : found? (cs ++ [c]) = found? cs := by
  have hfence : c ≠ '\x60' := by
    rintro rfl
    contradiction
  unfold found?
  rcases blockStart?_concat cs c with hstart | ⟨hnone, hempty⟩
  · rw [hstart, Option.bind_map]
    exact congrArg _ (funext fun r => beforeClosing?_concat hfence r)
  · rw [hnone, hempty]
    rfl

theorem found?_rdropWhile (cs : List Char) : found? (cs.rdropWhile isBlank) = found? cs := by
  induction cs using List.reverseRecOn with
  | nil => rfl
  | append_singleton cs c ih =>
    rw [List.rdropWhile_concat]
    split
    · next hblank => rw [ih, found?_concat hblank]
    · rfl

/-- Trimming a text keeps its first block. -/
theorem found?_trim (cs : List Char) : found? (trim cs) = found? cs := by
  rw [trim, trimBy, ← List.rdropWhile, found?_rdropWhile, found?, blockStart?_dropWhile, found?]

end

end DecisionGate.Mind
