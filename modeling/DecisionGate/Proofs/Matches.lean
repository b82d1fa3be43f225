import DecisionGate.Proofs.Levels

/-!
# Matches in structured content

Structured content is searched as the small letters of its JSON text. The parts of the content stand
in this text in full, but between other characters, and with some of their own characters escaped.
So what occurs in a part occurs in the whole as long as neither can touch it: its characters are
written as they are, and no small form that has one of them depends on what stands around it. Only
the two small forms of sigma do, and every word of the catalog is free of them.
-/
namespace DecisionGate

namespace Text

/-- The small form of a character between those before it, in reverse, and those behind it. -/
def lowerAt (before : List Char) (c : Char) (rest : List Char) : List Char :=
  if c = 'Σ' then
    (if nextIsCased before && !nextIsCased rest then ['ς'] else ['σ'])
  else lowerChar c

theorem lowerFrom_cons (before : List Char) (c : Char) (rest : List Char) :
    lowerFrom before (c :: rest) = lowerAt before c rest ++ lowerFrom (c :: before) rest := rfl

theorem lowerFrom_append (before xs ys : List Char) :
    ∃ head, lowerFrom before (xs ++ ys) = head ++ lowerFrom (xs.reverse ++ before) ys := by
  induction xs generalizing before with
  | nil => exact ⟨[], rfl⟩
  | cons c xs ih =>
    obtain ⟨head, hhead⟩ := ih (c :: before)
    refine ⟨lowerAt before c (xs ++ ys) ++ head, ?_⟩
    rw [List.cons_append, lowerFrom_cons, hhead, List.append_assoc, List.reverse_cons,
      List.append_assoc, List.singleton_append]

/-- A character is settled when every small form that has it is the same anywhere. -/
def IsSettled (d : Char) : Prop :=
  ∀ c before rest before' rest', d ∈ lowerAt before c rest →
    lowerAt before' c rest' = lowerAt before c rest

theorem lowerAt_of_ne {c : Char} (h : c ≠ 'Σ') (before rest : List Char) :
    lowerAt before c rest = lowerChar c := if_neg h

theorem lowerAt_sigma (before rest : List Char) :
    lowerAt before 'Σ' rest = ['ς'] ∨ lowerAt before 'Σ' rest = ['σ'] := by
  rw [lowerAt, if_pos rfl]
  split
  · exact .inl rfl
  · exact .inr rfl

theorem isSettled_iff {d : Char} : IsSettled d ↔ d ≠ 'σ' ∧ d ≠ 'ς' := by
  constructor
  · intro h
    -- alone a capital sigma is no end of a word, behind a letter it is
    have hends : lowerAt ['a'] 'Σ' [] ≠ lowerAt [] 'Σ' [] := by decide +kernel
    refine ⟨?_, ?_⟩
    · rintro rfl
      exact hends (h 'Σ' [] [] ['a'] [] (by decide +kernel))
    · rintro rfl
      exact hends (h 'Σ' ['a'] [] [] [] (by decide +kernel)).symm
  · rintro ⟨hmiddle, hfinal⟩ c before rest before' rest' hd
    by_cases hc : c = 'Σ'
    · subst hc
      rcases lowerAt_sigma before rest with h | h
      · exact absurd (List.mem_singleton.mp (h ▸ hd)) hfinal
      · exact absurd (List.mem_singleton.mp (h ▸ hd)) hmiddle
    · rw [lowerAt_of_ne hc, lowerAt_of_ne hc]

/-- A spelling shows a class of characters: a character whose small form has one of them is spelled
as itself and has this small form anywhere, and the small form of any other is a single character
that is not of the class. -/
def Shows (spell : Char → List Char) (shown : Char → Prop) : Prop :=
  ∀ c before rest,
    (spell c = [c] ∧ ∀ before' rest', lowerAt before' c rest' = lowerAt before c rest) ∨
      ∃ d, lowerAt before c rest = [d] ∧ ¬ shown d

section
variable {spell : Char → List Char} {shown : Char → Prop} {k cs : List Char}

theorem prefix_lowerFrom (hspell : Shows spell shown) (hk : ∀ d ∈ k, shown d)
    (before before' tail : List Char) (h : k <+: lowerFrom before cs) :
    k <+: lowerFrom before' (cs.flatMap spell ++ tail) := by
  -- what is before differs between the two texts from the first character on
  induction cs generalizing k before before' with
  | nil =>
    rw [List.prefix_nil.mp h]
    exact List.nil_prefix
  | cons c cs ih =>
    rw [lowerFrom_cons] at h
    rcases hspell c before cs with ⟨hsame, hplace⟩ | ⟨d, hform, hd⟩
    · rw [List.flatMap_cons, hsame, List.singleton_append, List.cons_append, lowerFrom_cons,
        hplace]
      obtain ⟨more, hmore⟩ := h
      rcases List.append_eq_append_iff.mp hmore with ⟨left, hleft, -⟩ | ⟨right, hright, hrest⟩
      · rw [hleft, List.append_assoc]
        exact List.prefix_append _ _
      · subst hright
        rw [List.prefix_append_right_inj]
        exact ih (fun e he => hk e (List.mem_append_right _ he)) _ _ ⟨more, hrest.symm⟩
    · rw [hform, List.singleton_append, List.prefix_cons_iff] at h
      rcases h with rfl | ⟨rest, rfl, -⟩
      · exact List.nil_prefix
      · exact absurd (hk d List.mem_cons_self) hd

theorem infix_lowerFrom (hspell : Shows spell shown) (hk : ∀ d ∈ k, shown d)
    (before before' tail : List Char) (h : k <:+: lowerFrom before cs) :
    k <:+: lowerFrom before' (cs.flatMap spell ++ tail) := by
  induction cs generalizing before before' with
  | nil =>
    rw [List.infix_nil.mp h]
    exact List.nil_infix
  | cons c cs ih =>
    rw [lowerFrom_cons] at h
    rw [List.flatMap_cons, List.append_assoc]
    -- a match that reaches into the small form of a character keeps the character
    rcases hspell c before cs with ⟨hsame, hplace⟩ | ⟨d, hform, hd⟩
    · rw [hsame, List.singleton_append, lowerFrom_cons, hplace]
      rcases List.infix_append_iff.mp h with hhere | hlater | ⟨left, right, rfl, hleft, hright⟩
      · exact List.infix_append_of_infix_left hhere
      · exact List.infix_append_of_infix_right (ih _ _ hlater)
      · have hright' := prefix_lowerFrom hspell
          (fun e he => hk e (List.mem_append_right _ he)) (c :: before) (c :: before') tail hright
        exact List.infix_append_iff.mpr (.inr (.inr ⟨left, right, rfl, hleft, hright'⟩))
    · rw [hform, List.singleton_append, List.infix_cons_iff, List.prefix_cons_iff] at h
      have hlater : k <:+: lowerFrom (c :: before) cs := by
        rcases h with (rfl | ⟨rest, rfl, -⟩) | hlater
        · exact List.nil_infix
        · exact absurd (hk d List.mem_cons_self) hd
        · exact hlater
      obtain ⟨head, hhead⟩ := lowerFrom_append before' (spell c) (cs.flatMap spell ++ tail)
      rw [hhead]
      exact List.infix_append_of_infix_right (ih _ _ hlater)

/-- What is shown of a text in small letters is there wherever the text is spelled. -/
theorem infix_lower {text : List Char} (hspell : Shows spell shown) (hk : ∀ d ∈ k, shown d)
    (htext : cs.flatMap spell <:+: text) (h : k <:+: lower cs) : k <:+: lower text := by
  obtain ⟨front, tail, rfl⟩ := htext
  rw [List.append_assoc]
  obtain ⟨head, hhead⟩ := lowerFrom_append [] front (cs.flatMap spell ++ tail)
  rw [lower, hhead]
  exact List.infix_append_of_infix_right (infix_lowerFrom hspell hk _ _ _ h)

end

end Text

namespace Json

/-- What is escaped is its own small form. -/
theorem lowerChar_of_escaped {c : Char} (h : escapeChar .unicode c ≠ [c]) :
    Text.lowerChar c = [c] := by
  by_cases hback : c = '\\'
  · subst hback
    decide
  · refine Text.lowerChar_of_lt ?_
    by_contra hlarge
    have hne : ∀ d : Char, d.toNat < 65 → c ≠ d := by
      rintro d hd rfl
      exact hlarge hd
    refine h ?_
    rw [escapeChar, if_neg (hne _ (by decide)), if_neg hback, if_neg (hne _ (by decide)),
      if_neg (hne _ (by decide)), if_neg (hne _ (by decide)), if_neg (by omega),
      if_neg (by omega), if_neg (by omega), if_neg (by simp)]

/-- A character that is written as it is and that no context changes the small form of. -/
structure IsVerbatim (d : Char) : Prop where
  written : escapeChar .unicode d = [d]
  settled : Text.IsSettled d

theorem isVerbatim_iff {d : Char} :
    IsVerbatim d ↔ escapeChar .unicode d = [d] ∧ d ≠ 'σ' ∧ d ≠ 'ς' := by
  constructor
  · intro h
    exact ⟨h.written, Text.isSettled_iff.mp h.settled⟩
  · rintro ⟨hwritten, hsigma⟩
    exact ⟨hwritten, Text.isSettled_iff.mpr hsigma⟩

instance : DecidablePred IsVerbatim := fun _ => decidable_of_iff _ isVerbatim_iff.symm

theorem shows_escapeChar : Text.Shows (escapeChar .unicode) IsVerbatim := by
  intro c before rest
  by_cases hsigma : c = 'Σ'
  · subst hsigma
    rcases Text.lowerAt_sigma before rest with h | h
    · exact .inr ⟨_, h, fun hd => (isVerbatim_iff.mp hd).2.2 rfl⟩
    · exact .inr ⟨_, h, fun hd => (isVerbatim_iff.mp hd).2.1 rfl⟩
  · rw [Text.lowerAt_of_ne hsigma]
    by_cases hwritten : escapeChar .unicode c = [c]
    · exact .inl ⟨hwritten, Text.lowerAt_of_ne hsigma⟩
    · exact .inr ⟨c, lowerChar_of_escaped hwritten, fun hd => hwritten hd.written⟩

/-- A text that is written without quotes and escapes shows no less. -/
theorem shows_singleton : Text.Shows (fun c => [c]) IsVerbatim := fun c before rest =>
  (shows_escapeChar c before rest).imp_left fun h => ⟨rfl, h.2⟩

theorem line_str (s : String) : line (.str s) = stringText .unicode s := by rw [line, write]

theorem infix_escaped (s : String) :
    s.toList.flatMap (escapeChar .unicode) <:+: (line (.str s)).toList := by
  rw [line_str, stringText, String.toList_ofList]
  exact ⟨['"'], ['"'], rfl⟩

/-- What a content is made of: itself, the parts of its items and members, and the names of its
members. -/
inductive Part : Value → Value → Prop
  | self (v : Value) : Part v v
  | item {w v : Value} {xs : List Value} : Part w v → v ∈ xs → Part w (.list xs)
  | member {w v : Value} {k : Key} {es : Entries} : Part w v → (k, v) ∈ es → Part w (.map es)
  | name {v : Value} {k : Key} {es : Entries} : (k, v) ∈ es → Part (.str (keyName k)) (.map es)

theorem writeItems_eq (charset : Charset) (layout : Layout) (xs : List Value) :
    writeItems charset layout xs = xs.map (write charset layout) := by
  induction xs with
  | nil => rfl
  | cons v rest ih => rw [writeItems, ih, List.map_cons]

theorem writeMembers_eq (charset : Charset) (layout : Layout) (es : Entries) :
    writeMembers charset layout es = es.map fun e =>
      stringText charset (keyName e.1) ++ layout.colon ++ write charset layout e.2 := by
  induction es with
  | nil => rfl
  | cons e rest ih => rw [writeMembers, ih, List.map_cons]

theorem infix_intercalate {α : Type} {w : List α} {ws : List (List α)} (sep : List α)
    (h : w ∈ ws) : w <:+: sep.intercalate ws := by
  induction ws with
  | nil => cases h
  | cons v rest ih =>
    by_cases hne : rest = []
    · subst hne
      rw [List.intercalate_singleton, List.mem_singleton.mp h]
    · rw [List.intercalate_cons_of_ne_nil hne]
      rcases List.mem_cons.mp h with rfl | hrest
      · rw [List.append_assoc]
        exact (List.prefix_append _ _).isInfix
      · exact List.infix_append_of_infix_right (ih hrest)

theorem infix_enclose {item : String} {items : List String} (opening closing : String)
    (h : item ∈ items) :
    item.toList <:+: (Layout.line.enclose opening closing items).toList := by
  have hne : ¬ items.isEmpty = true := by
    rw [List.isEmpty_iff]
    exact List.ne_nil_of_mem h
  rw [Layout.enclose, if_neg hne]
  simp only [String.toList_append, String.toList_intercalate]
  have hrow := infix_intercalate ", ".toList (List.mem_map_of_mem (f := String.toList) h)
  exact hrow.trans (List.infix_append _ _ _)

theorem infix_item {v : Value} {xs : List Value} (h : v ∈ xs) :
    (line v).toList <:+: (line (.list xs)).toList := by
  refine infix_enclose "[" "]" ?_
  rw [writeItems_eq]
  exact List.mem_map_of_mem h

theorem infix_member {k : Key} {v : Value} {es : Entries} (h : (k, v) ∈ es) :
    (stringText .unicode (keyName k) ++ ": " ++ line v).toList <:+: (line (.map es)).toList := by
  refine infix_enclose "\x7b" "\x7d" ?_
  rw [writeMembers_eq]
  exact List.mem_map.mpr ⟨(k, v), h, rfl⟩

/-- A part is written in the whole as it is written alone. -/
theorem infix_line {w v : Value} (h : Part w v) : (line w).toList <:+: (line v).toList := by
  induction h with
  | self v => exact List.infix_rfl
  | item _ hmem ih => exact ih.trans (infix_item hmem)
  | member _ hmem ih =>
    refine ih.trans (.trans ?_ (infix_member hmem))
    rw [String.toList_append]
    exact (List.suffix_append _ _).isInfix
  | name hmem =>
    refine .trans ?_ (infix_member hmem)
    rw [line_str, String.append_assoc, String.toList_append]
    exact (List.prefix_append _ _).isInfix

end Json

namespace Belief

open Json

/-- Every character of a text is written as it is and has a small form of its own. -/
def IsPlain (k : String) : Prop := ∀ d ∈ k.toList, IsVerbatim d

instance (k : String) : Decidable (IsPlain k) :=
  decidable_of_iff ((k.toList.all fun d => decide (IsVerbatim d)) = true)
    (by simp only [List.all_eq_true, decide_eq_true_eq, IsPlain])

/-- Every text that a level looks for. -/
def LevelSpec.vocabulary (s : LevelSpec) : List String :=
  s.beliefs.flatMap Entry.keywords ++
    s.penalties.flatMap (fun p => p.anyOf ++ p.allOf ++ p.noneOf) ++
      s.veto.toList.flatMap VetoRule.markers

theorem isPlain_of_mem_vocabulary {l : Level} {k : String} (h : k ∈ (spec l).vocabulary) :
    IsPlain k := by
  have hall : (spec l).vocabulary.all (fun k => decide (IsPlain k)) = true := by
    cases l <;> decide +kernel
  exact of_decide_eq_true (List.all_eq_true.mp hall k h)

theorem keywords_subset_vocabulary {s : LevelSpec} {e : Entry} (h : e ∈ s.beliefs) :
    e.keywords ⊆ s.vocabulary := by
  intro k hk
  rw [LevelSpec.vocabulary, List.mem_append, List.mem_append, List.mem_flatMap]
  exact .inl (.inl ⟨e, h, hk⟩)

theorem contentText_of_ne_str {v : Value} (h : ∀ s, v ≠ .str s) : contentText v = line v := by
  cases v with
  | str s => exact absurd rfl (h s)
  | _ => rfl

theorem occurs_iff {k : String} {v : Value} :
    Occurs k v ↔ k.toList <:+: Text.lower (contentText v).toList := by
  rw [Occurs, searchText, lowered, String.toList_ofList]

theorem Occurs.of_part {k : String} {w v : Value} (h : Part w v) (hk : IsPlain k)
    (ho : Occurs k w) : Occurs k v := by
  rw [occurs_iff] at ho ⊢
  by_cases hv : ∃ s, v = .str s
  · obtain ⟨s, rfl⟩ := hv
    cases h
    exact ho
  · rw [contentText_of_ne_str fun s hs => hv ⟨s, hs⟩]
    by_cases hw : ∃ s, w = .str s
    · obtain ⟨s, rfl⟩ := hw
      exact Text.infix_lower shows_escapeChar hk ((infix_escaped s).trans (infix_line h)) ho
    · rw [contentText_of_ne_str fun s hs => hw ⟨s, hs⟩] at ho
      refine Text.infix_lower shows_singleton hk ?_ ho
      rw [List.flatMap_singleton']
      exact infix_line h

-- a sigma that opens a line ends no word, but behind the letter of the escaped line break it does
example : Occurs "σ" (.str "\nΣ") ∧ ¬ Occurs "σ" (.list [.str "\nΣ"]) := by
  simp only [← contains_iff]
  decide +kernel

theorem hits_le_of_part {w v : Value} {keywords : List String} (h : Part w v)
    (hk : ∀ k ∈ keywords, IsPlain k) :
    hits (searchText w) keywords ≤ hits (searchText v) keywords := by
  refine List.countP_mono_left fun k hmem hoccurs => ?_
  rw [contains_iff] at hoccurs ⊢
  exact Occurs.of_part h (hk k hmem) hoccurs

/-- Writing a content as JSON hides no match. Whatever occurs in a part of it, be this a text, the
name of a member or a collection, occurs in the whole, as long as its characters are written as they
are and have small forms of their own. All that the catalog looks for is of this kind, so the whole
has no fewer keywords of a belief than any of its parts. -/
theorem matches_of_part (content : Value) :
    (∀ l, ∀ k ∈ (spec l).vocabulary, IsPlain k) ∧
      ∀ w, Part w content →
        (∀ k, IsPlain k → Occurs k w → Occurs k content) ∧
          ∀ l, ∀ e ∈ (spec l).beliefs,
            hits (searchText w) e.keywords ≤ hits (searchText content) e.keywords := by
  refine ⟨fun l k hk => isPlain_of_mem_vocabulary hk, fun w hw => ⟨fun k hk ho => ?_, ?_⟩⟩
  · exact Occurs.of_part hw hk ho
  · intro l e he
    refine hits_le_of_part hw fun k hk => ?_
    exact isPlain_of_mem_vocabulary (keywords_subset_vocabulary he hk)

/-- An accented keyword in capital letters between characters that are escaped, and one in the name
of a member. -/
theorem matches_of_part_nested :
    Occurs "propósito"
        (.list [.int 1, .map [(.str "Dados", .list [.str "o \"PROPÓSITO\"\n"])]]) ∧
      Occurs "dados"
        (.list [.int 1, .map [(.str "Dados", .list [.str "o \"PROPÓSITO\"\n"])]]) ∧
      1 ≤ hits (searchText
        (.list [.int 1, .map [(.str "Dados", .list [.str "o \"PROPÓSITO\"\n"])]]))
          ["propósito", "sistema", "construção", "ordem", "caos", "clareza", "execução"] := by
  have hwhole := (matches_of_part
    (.list [.int 1, .map [(.str "Dados", .list [.str "o \"PROPÓSITO\"\n"])]])).2
  have hlast : ∀ v w : Value, w ∈ [v, w] := fun v w =>
    List.mem_cons_of_mem v List.mem_cons_self
  have hitem := hwhole (.str "o \"PROPÓSITO\"\n")
    (.item (.member (.item (.self _) List.mem_cons_self) List.mem_cons_self) (hlast _ _))
  have hname := hwhole (.str "Dados")
    (.item (.name (k := .str "Dados") List.mem_cons_self) (hlast _ _))
  refine ⟨hitem.1 _ (by decide +kernel) ?_, hname.1 _ (by decide +kernel) ?_, ?_⟩
  · rw [← contains_iff]
    decide +kernel
  · rw [← contains_iff]
    decide +kernel
  · refine le_trans ?_ (hitem.2 .existential _ List.mem_cons_self)
    decide +kernel

end Belief

end DecisionGate
