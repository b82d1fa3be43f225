import DecisionGate.Proofs.Blocks
import DecisionGate.Proofs.Keys

/-!
# Texts in sections

Sections that are written out, each under its heading, are read back: the headings in the order in
which they first stand, each with the last body that stands under it. What is written before the
first heading is dropped.
-/
namespace DecisionGate.Mind

open Text

theorem heading?_eq_none_iff {l : List Char} : heading? l = none ↔ ¬ ['#', ' '] <+: l := by
  rw [heading?.eq_def]
  split
  · simp
  · next hother =>
    refine iff_of_true rfl fun ⟨rest, hrest⟩ => hother rest hrest.symm

/-- A heading with the lines below it. -/
abbrev Chunk := String × List (List Char)

/-- The chunks of some lines, the first of them under the heading that is open. -/
def chunksFrom (current : Option Chunk) : List (List Char) → List Chunk
  | [] => current.toList
  | line :: rest =>
    match heading? line with
    | some heading => current.toList ++ chunksFrom (some (heading, [])) rest
    | none => chunksFrom (current.map fun (heading, body) => (heading, body ++ [line])) rest

/-- The entry of a chunk. -/
def Chunk.entry (c : Chunk) : String × Value := (c.1, .str (bodyText c.2))

section
variable {current : Option Chunk} {done : Entries} {ls rest : List (List Char)} {cs : List Chunk}

theorem closeSection_eq (done : Entries) (current : Option Chunk) :
    closeSection done current = done.update (Entries.ofNames (current.toList.map Chunk.entry)) := by
  cases current <;> rfl

theorem sectionsFrom_eq (done : Entries) (current : Option Chunk) (ls : List (List Char)) :
    sectionsFrom done current ls =
      done.update (Entries.ofNames ((chunksFrom current ls).map Chunk.entry)) := by
  induction ls generalizing done current with
  | nil => exact closeSection_eq done current
  | cons l ls ih =>
    rw [sectionsFrom, chunksFrom]
    cases heading? l with
    | some heading =>
      have hrest := ih (closeSection done current) (some (heading, []))
      rw [closeSection_eq] at hrest
      simpa [closeSection_eq, Entries.update, Entries.ofNames, List.foldl_append] using hrest
    | none => exact ih done _

theorem sections_eq (text : String) : sections text =
    Entries.ofList (Entries.ofNames ((chunksFrom none (lines text.toList)).map Chunk.entry)) :=
  sectionsFrom_eq [] none _

theorem chunksFrom_append (h : ∀ l ∈ ls, heading? l = none) (current : Option Chunk) :
    chunksFrom current (ls ++ rest) =
      chunksFrom (current.map fun (heading, body) => (heading, body ++ ls)) rest := by
  induction ls generalizing current with
  | nil => cases current <;> simp
  | cons l ls ih =>
    rw [List.cons_append, chunksFrom, h l List.mem_cons_self]
    simp only
    rw [ih fun m hm => h m (List.mem_cons_of_mem l hm)]
    cases current <;> simp

/-- The lines of a chunk are lines of the text and no headings. -/
theorem plain_of_mem_chunksFrom {c : Chunk} {l : List Char} (hc : c ∈ chunksFrom current ls)
    (hl : l ∈ c.2) :
    (∃ open', current = some open' ∧ l ∈ open'.2) ∨ l ∈ ls ∧ heading? l = none := by
  induction ls generalizing current with
  | nil =>
    obtain rfl := Option.mem_toList.mp hc
    exact .inl ⟨c, rfl, hl⟩
  | cons m ls ih =>
    rw [chunksFrom] at hc
    split at hc
    · rcases List.mem_append.mp hc with hcurrent | hrest
      · exact .inl ⟨c, Option.mem_toList.mp hcurrent, hl⟩
      · rcases ih hrest with ⟨_, heq, hmem⟩ | ⟨hmem, hplain⟩
        · cases heq
          cases hmem
        · exact .inr ⟨List.mem_cons_of_mem m hmem, hplain⟩
    · next hnone =>
      rcases ih hc with ⟨_, heq, hmem⟩ | ⟨hmem, hplain⟩
      · obtain ⟨⟨heading, body⟩, rfl, rfl⟩ := Option.map_eq_some_iff.mp heq
        rcases List.mem_append.mp hmem with hbody | hline
        · exact .inl ⟨_, rfl, hbody⟩
        · obtain rfl := List.mem_singleton.mp hline
          exact .inr ⟨List.mem_cons_self, hnone⟩
      · exact .inr ⟨List.mem_cons_of_mem m hmem, hplain⟩

/-- The line that a heading is written as. -/
def headline (heading : String) : List Char := '#' :: ' ' :: heading.toList

/-- The lines of some chunks. -/
def layout (cs : List Chunk) : List (List Char) := cs.flatMap fun c => headline c.1 :: c.2

/-- A chunk that stands for itself: no blanks around its heading, and no headings in its body. -/
structure Chunk.IsPlain (c : Chunk) : Prop where
  heading : trim c.1.toList = c.1.toList
  body : ∀ l ∈ c.2, heading? l = none

theorem heading?_headline {heading : String} (h : trim heading.toList = heading.toList) :
    heading? (headline heading) = some heading := by
  rw [headline, heading?, h, String.ofList_toList]

theorem unbroken_headline {heading : String} (h : Unbroken heading.toList) :
    Unbroken (headline heading) :=
  unbroken_cons.mpr ⟨by decide, unbroken_cons.mpr ⟨by decide, h⟩⟩

theorem chunksFrom_layout (h : ∀ c ∈ cs, c.IsPlain) (current : Option Chunk) :
    chunksFrom current (layout cs) = current.toList ++ cs := by
  induction cs generalizing current with
  | nil => exact (List.append_nil _).symm
  | cons c cs ih =>
    have hc := h c List.mem_cons_self
    have hlayout : layout (c :: cs) = headline c.1 :: (c.2 ++ layout cs) := rfl
    rw [hlayout, chunksFrom, heading?_headline hc.heading]
    simp only
    rw [chunksFrom_append hc.body, ih fun d hd => h d (List.mem_cons_of_mem c hd)]
    rfl

/-- What stands above the first heading is dropped. -/
theorem chunksFrom_none (hpreamble : ∀ l ∈ ls, heading? l = none) (h : ∀ c ∈ cs, c.IsPlain) :
    chunksFrom none (ls ++ layout cs) = cs := by
  rw [chunksFrom_append hpreamble none]
  exact chunksFrom_layout h none

end

theorem trim_concat {c : Char} (h : isBlank c = true) (cs : List Char) :
    trim (cs ++ [c]) = trim cs := by
  rw [trim, trimBy, ← List.rdropWhile, trim, trimBy, ← List.rdropWhile, List.dropWhile_append]
  split
  · next hnone => simp [List.isEmpty_iff.mp hnone, h]
  · rw [List.rdropWhile_concat_pos _ _ _ h]

theorem bodyText_eq (ls : List (List Char)) : bodyText ls = String.ofList (trim (joined ls)) := rfl

theorem bodyText_concat_nil (ls : List (List Char)) : bodyText (ls ++ [[]]) = bodyText ls := by
  cases ls with
  | nil => rfl
  | cons l ls =>
    have hjoined : joined (l :: ls ++ [[]]) = joined (l :: ls) ++ ['\n'] :=
      joined_append (by simp) (by simp)
    rw [bodyText_eq, bodyText_eq, hjoined, trim_concat (by decide)]

theorem entries_concat_nil (current : Option Chunk) (ls : List (List Char)) :
    (chunksFrom current (ls ++ [[]])).map Chunk.entry =
      (chunksFrom current ls).map Chunk.entry := by
  induction ls generalizing current with
  | nil =>
    cases current with
    | none => rfl
    | some c =>
      obtain ⟨heading, body⟩ := c
      exact congrArg (fun text => [(heading, Value.str text)]) (bodyText_concat_nil body)
  | cons l ls ih =>
    rw [List.cons_append, chunksFrom, chunksFrom]
    cases heading? l with
    | some heading => simp only [List.map_append, ih]
    | none => exact ih _

/-- Lines that are joined have the sections of the lines, whether or not the last one is empty. -/
theorem sections_joined {ls : List (List Char)} (h : ∀ l ∈ ls, Unbroken l) :
    sections (String.ofList (joined ls)) =
      Entries.ofList (Entries.ofNames ((chunksFrom none ls).map Chunk.entry)) := by
  rw [sections_eq, String.toList_ofList]
  rcases lines_joined h with heq | heq
  · rw [heq]
  · rw [← entries_concat_nil none (lines (joined ls)), heq]

/-- A body without a block stands for itself. -/
theorem sectionValue_of_unfenced (load : String → Yaml.Read Value) {body : String}
    (h : ¬ HasBlock body.toList) : sectionValue load (.str body) = pure (.ok (.str body)) := by
  have hnone : (Value.str body).text?.bind block? = none := by
    rw [Value.text?, Option.bind_some, block?_eq, found?_eq_none h]
    rfl
  rw [sectionValue, hnone]

theorem sectionValues_of_unfenced (load : String → Yaml.Read Value) {es : Entries}
    (h : ∀ e ∈ es, ∃ body, e.2 = .str body ∧ ¬ HasBlock body.toList) :
    sectionValues load es = pure (.ok es) := by
  induction es with
  | nil => rfl
  | cons e es ih =>
    obtain ⟨heading, v⟩ := e
    obtain ⟨body, rfl, hunfenced⟩ := h _ List.mem_cons_self
    rw [sectionValues, sectionValue_of_unfenced load hunfenced,
      ih fun e he => h e (List.mem_cons_of_mem _ he)]
    rfl

/-- A heading and the text below it. -/
structure Section where
  heading : String
  body : String

namespace Section

/-- A section as it is written. -/
def text (s : Section) : String := "# " ++ s.heading ++ "\n" ++ s.body ++ "\n"

/-- A section of prose: its heading is one line, its body has no breaks but line feeds, neither has
blanks around it, and the body holds no heading and no block. -/
structure IsProse (s : Section) : Prop where
  heading_trimmed : trim s.heading.toList = s.heading.toList
  heading_line : Unbroken s.heading.toList
  body_trimmed : trim s.body.toList = s.body.toList
  body_breaks : ∀ c ∈ s.body.toList, isLineBreak c = true → c = '\n'
  body_plain : ∀ l ∈ s.body.toList.splitOn '\n', ¬ ['#', ' '] <+: l
  unfenced : ¬ HasBlock s.body.toList

def chunk (s : Section) : Chunk := (s.heading, s.body.toList.splitOn '\n')

end Section

/-- A preamble as whole lines: its last line is ended if it is not. -/
def ended (preamble : String) : String :=
  if IsEnded preamble.toList then preamble else preamble ++ "\n"

/-- A preamble and, after it, some sections. -/
def render (preamble : String) (ss : List Section) : String :=
  ended preamble ++ String.join (ss.map Section.text)

theorem bodyText_splitOn {body : String} (h : trim body.toList = body.toList) :
    bodyText (body.toList.splitOn '\n') = body := by
  rw [bodyText_eq, joined_splitOn, h, String.ofList_toList]

namespace Section

variable {s : Section}

theorem text_eq (s : Section) : s.text.toList = written (headline s.heading :: s.chunk.2) := by
  have hbody : s.body.toList ++ ['\n'] = written s.chunk.2 := by
    have hne : s.chunk.2 ≠ [] := List.splitOn_ne_nil _ _
    rw [← joined_newline hne, chunk, joined_splitOn]
  calc s.text.toList
      = headline s.heading ++ '\n' :: (s.body.toList ++ ['\n']) := by simp [text, headline]
    _ = written (headline s.heading :: s.chunk.2) := by simp [hbody, written]

theorem IsProse.unbroken (h : s.IsProse) : ∀ l ∈ headline s.heading :: s.chunk.2, Unbroken l := by
  intro l hl
  rcases List.mem_cons.mp hl with rfl | hbody
  · exact unbroken_headline h.heading_line
  · exact unbroken_of_mem_splitOn h.body_breaks hbody

theorem IsProse.isPlain (h : s.IsProse) : s.chunk.IsPlain where
  heading := h.heading_trimmed
  body l hl := heading?_eq_none_iff.mpr (h.body_plain l hl)

theorem IsProse.entry (h : s.IsProse) : s.chunk.entry = (s.heading, .str s.body) := by
  rw [Chunk.entry, chunk, bodyText_splitOn h.body_trimmed]

end Section

theorem isEnded_ended (preamble : String) : IsEnded (ended preamble).toList := by
  unfold ended
  split
  case isTrue hended => exact hended
  case isFalse => simp [IsEnded, isLineBreak]

theorem lines_ended (preamble : String) :
    lines (ended preamble).toList = lines preamble.toList := by
  unfold ended
  split
  case isTrue => rfl
  case isFalse hended =>
    rw [String.toList_append]
    exact lines_newline hended

variable {ss : List Section}

theorem toList_join_text (ss : List Section) :
    (String.join (ss.map Section.text)).toList = written (layout (ss.map Section.chunk)) := by
  induction ss with
  | nil => rfl
  | cons s ss ih =>
    have hlayout : layout ((s :: ss).map Section.chunk) =
        (headline s.heading :: s.chunk.2) ++ layout (ss.map Section.chunk) := rfl
    rw [List.map_cons, String.join_cons, String.toList_append, s.text_eq, ih, hlayout]
    simp [written]

/-- The lines of a rendered text are those of the preamble and, after them, those of the
sections. -/
theorem lines_render (preamble : String) (h : ∀ s ∈ ss, s.IsProse) :
    lines (render preamble ss).toList =
      lines preamble.toList ++ layout (ss.map Section.chunk) := by
  have hunbroken : ∀ l ∈ layout (ss.map Section.chunk), Unbroken l := by
    intro l hl
    obtain ⟨c, hc, hmem⟩ := List.mem_flatMap.mp hl
    obtain ⟨s, hs, rfl⟩ := List.mem_map.mp hc
    exact (h s hs).unbroken l hmem
  have hhead : (written (layout (ss.map Section.chunk))).head? ≠ some '\n' := by
    cases ss with
    | nil => nofun
    | cons s ss => simp [layout, headline, written]
  have hsections : lines (written (layout (ss.map Section.chunk))) =
      layout (ss.map Section.chunk) := by
    exact lines_written hunbroken
  rw [render, String.toList_append, toList_join_text, lines_append (isEnded_ended preamble) hhead,
    lines_ended, hsections]

theorem sections_render {preamble : String}
    (hpreamble : ∀ l ∈ lines preamble.toList, ¬ ['#', ' '] <+: l) (h : ∀ s ∈ ss, s.IsProse) :
    sections (render preamble ss) =
      Entries.ofList (Entries.ofNames (ss.map fun s => (s.heading, .str s.body))) := by
  have hplain : ∀ c ∈ ss.map Section.chunk, c.IsPlain := by
    intro c hc
    obtain ⟨s, hs, rfl⟩ := List.mem_map.mp hc
    exact (h s hs).isPlain
  have hentries : (ss.map Section.chunk).map Chunk.entry =
      ss.map fun s => (s.heading, .str s.body) := by
    rw [List.map_map]
    exact List.map_congr_left fun s hs => (h s hs).entry
  rw [sections_eq, lines_render preamble h,
    chunksFrom_none (fun l hl => heading?_eq_none_iff.mpr (hpreamble l hl)) hplain, hentries]

/-- Reading back a preamble without headings and some sections of prose gives the headings in the
order in which they first stand, and under each the last body that was written under it, whatever
reads the blocks of others. -/
theorem parseSections_render {preamble : String} {ss : List Section}
    (hpreamble : ∀ l ∈ lines preamble.toList, ¬ ['#', ' '] <+: l) (h : ∀ s ∈ ss, s.IsProse)
    (reader : Yaml.Reader) :
    ∃ es, parseSections (render preamble ss) reader = pure (.ok es) ∧
      es.map Prod.fst = (ss.map Section.heading).eraseDups.map .str ∧
      ∀ before s after, ss = before ++ s :: after → (∀ s' ∈ after, s'.heading ≠ s.heading) →
        es.get? s.heading = some (.str s.body) := by
  let pairs : List (String × Value) := ss.map fun s => (s.heading, .str s.body)
  refine ⟨Entries.ofList (Entries.ofNames pairs), ?_, ?_, ?_⟩
  · rw [parseSections, parseBy, sections_render hpreamble h]
    refine sectionValues_of_unfenced _ fun e he => ?_
    obtain ⟨p, hp, hvalue⟩ := Entries.exists_of_mem_ofList_ofNames he
    obtain ⟨s, hs, rfl⟩ := List.mem_map.mp hp
    exact ⟨s.body, hvalue.symm, (h s hs).unfenced⟩
  · rw [Entries.map_fst_ofList_ofNames, List.map_map]
    rfl
  · rintro before s after rfl hlast
    simp only [pairs, List.map_append, List.map_cons]
    exact Entries.get?_ofList_ofNames (by simpa using hlast)

/-- Two sections, and the first of them again with nothing below its heading. -/
def revised : List Section :=
  [⟨"First", "alpha"⟩, ⟨"Second", "beta\n## detail\n\n  gamma"⟩, ⟨"First", ""⟩]

theorem parseSections_render_revised :
    (∀ l ∈ lines "#preamble".toList, ¬ ['#', ' '] <+: l) ∧ (∀ s ∈ revised, s.IsProse) ∧
      ∃ es, parseSections (render "#preamble" revised) = pure (.ok es) ∧
        es.map Prod.fst = [.str "First", .str "Second"] ∧ es.get? "First" = some (.str "") ∧
        es.get? "Second" = some (.str "beta\n## detail\n\n  gamma") := by
  have hpreamble : ∀ l ∈ lines "#preamble".toList, ¬ ['#', ' '] <+: l := by decide +kernel
  have hprose : ∀ s ∈ revised, s.IsProse := by
    intro s hs
    simp only [revised, List.mem_cons, List.not_mem_nil, or_false] at hs
    rcases hs with rfl | rfl | rfl <;>
      exact ⟨by decide +kernel, by simp [Unbroken, isLineBreak], by decide +kernel,
        by simp [isLineBreak], by decide +kernel, not_hasBlock (by decide +kernel)⟩
  obtain ⟨es, hread, hkeys, hlast⟩ := parseSections_render hpreamble hprose Yaml.reader
  refine ⟨hpreamble, hprose, es, hread, ?_, hlast (revised.take 2) _ [] rfl (by decide),
    hlast (revised.take 1) _ (revised.drop 2) rfl (by decide +kernel)⟩
  rw [hkeys]
  rfl

end DecisionGate.Mind
