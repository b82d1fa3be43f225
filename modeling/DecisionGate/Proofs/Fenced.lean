import DecisionGate.Proofs.Results
import DecisionGate.Proofs.Sectioning

/-!
# Documents of fenced blocks

The sections of a text are told apart line by line before any block is looked for. A line in a block
that reads like a heading therefore ends its section, and with it the block; a break of any kind in
a block comes out as a line feed; and a line of prose that ends in an opening opens a block of its
own. This module takes the loading of blocks as it comes and says exactly when each section of a
document stands for what its block is loaded as: when none of this touches the block.
-/
namespace DecisionGate.Mind

open Text

/-- What a body stands for where blocks are loaded without fail. -/
def standsFor (data : String → Value) (body : Value) : Value :=
  (body.text?.bind block?).elim body data

theorem sectionValues_eq {load : String → Yaml.Read Value} {data : String → Value} {es : Entries}
    (h : ∀ e ∈ es, ∀ b, e.2.text?.bind block? = some b → load b = .ok (data b)) :
    sectionValues load es = pure (.ok (es.map fun e => (e.1, standsFor data e.2))) := by
  induction es with
  | nil => rfl
  | cons e es ih =>
    obtain ⟨heading, body⟩ := e
    have hbody : sectionValue load body = pure (.ok (standsFor data body)) := by
      have hload := h _ List.mem_cons_self
      unfold sectionValue standsFor
      cases hblock : body.text?.bind block? with
      | none => rfl
      | some b =>
        simp only [hload b hblock]
        rfl
    rw [sectionValues, hbody, ih fun e he => h e (List.mem_cons_of_mem _ he)]
    rfl

/-- A section with a fenced block: its heading, the prose above the block, the opening, the content
of the block, and the prose below it. -/
structure Fenced where
  heading : String
  above : List (List Char)
  opening : List Char
  content : String
  below : List (List Char)

namespace Fenced

def block (s : Fenced) : List (List Char) := s.content.toList.splitOn '\n'

/-- The lines below the heading. -/
def body (s : Fenced) : List (List Char) :=
  s.above ++ s.opening :: (s.block ++ fence :: s.below)

def chunk (s : Fenced) : Chunk := (s.heading, s.body)

/-- A line of prose is one line; it begins neither with a heading nor with a fence. -/
structure IsProseLine (l : List Char) : Prop where
  line : Unbroken l
  plain : ¬ ['#', ' '] <+: l
  unfenced : ¬ fence <+: l

/-- A section as it may be written down. -/
structure IsWritten (s : Fenced) : Prop where
  heading_trimmed : trim s.heading.toList = s.heading.toList
  heading_line : Unbroken s.heading.toList
  above : ∀ l ∈ s.above, IsProseLine l
  opening : s.opening ∈ marks
  content_nonempty : s.content.toList ≠ []
  content_unfenced : ∀ l ∈ s.block, ¬ fence <+: l
  below : ∀ l ∈ s.below, IsProseLine l

/-- A content in which nothing is taken for a heading and no break but line feeds is used. -/
structure IsQuiet (s : Fenced) : Prop where
  breaks : ∀ c ∈ s.content.toList, isLineBreak c = true → c = '\n'
  plain : ∀ l ∈ s.block, ¬ ['#', ' '] <+: l

/-- A section whose block comes through: its content is quiet, and where a line of prose above it
ends in an opening, the rest of that prose happens to be the content. -/
structure IsKept (s : Fenced) : Prop where
  quiet : s.IsQuiet
  first : ∀ before l after, s.above = before ++ l :: after → (∀ k ∈ before, opens k = false) →
    opens l = true → joined after = s.content.toList

end Fenced

/-- A document of such sections. -/
def document (doc : List Fenced) : String := String.ofList (joined (layout (doc.map Fenced.chunk)))

namespace Fenced

variable {s : Fenced}

theorem block_ne_nil (s : Fenced) : s.block ≠ [] := List.splitOn_ne_nil _ _

theorem joined_block (s : Fenced) : joined s.block = s.content.toList := joined_splitOn _

theorem IsWritten.opens (h : s.IsWritten) : opens s.opening = true := by
  have hmarks : ∀ m ∈ marks, Mind.opens m = true := by decide
  exact hmarks _ h.opening

/-- What holds of prose, of openings, of the block and of a fence holds of all lines. -/
theorem IsWritten.forall_mem_body (h : s.IsWritten) {p : List Char → Prop}
    (hprose : ∀ l, IsProseLine l → p l) (hmarks : ∀ m ∈ marks, p m) (hblock : ∀ l ∈ s.block, p l)
    (hfence : p fence) : ∀ l ∈ s.body, p l := by
  intro l hl
  simp only [body, List.mem_append, List.mem_cons] at hl
  rcases hl with habove | rfl | hmem | rfl | hbelow
  · exact hprose l (h.above l habove)
  · exact hmarks _ h.opening
  · exact hblock l hmem
  · exact hfence
  · exact hprose l (h.below l hbelow)

theorem IsWritten.newline_notMem (h : s.IsWritten) : ∀ l ∈ s.body, '\n' ∉ l :=
  h.forall_mem_body (fun _ hl => hl.line.newline_notMem) newline_notMem_of_mem_marks
    (fun _ hl => newline_notMem_of_mem_splitOn hl) (by decide)

theorem IsWritten.unbroken (h : s.IsWritten) (hquiet : s.IsQuiet) : ∀ l ∈ s.body, Unbroken l :=
  h.forall_mem_body (fun _ hl => hl.line) (by simp [marks, fence, Unbroken, isLineBreak])
    (fun _ hl => unbroken_of_mem_splitOn hquiet.breaks hl) (by simp [fence, Unbroken, isLineBreak])

theorem IsWritten.isPlain (h : s.IsWritten) (hquiet : s.IsQuiet) : s.chunk.IsPlain where
  heading := h.heading_trimmed
  body l hl := by
    have hplain : ∀ l ∈ s.body, ¬ ['#', ' '] <+: l :=
      h.forall_mem_body (fun _ hl => hl.plain) (by decide) hquiet.plain (by decide)
    exact heading?_eq_none_iff.mpr (hplain l hl)

theorem found?_body_of_silent (h : s.IsWritten) (hsilent : ∀ l ∈ s.above, Mind.opens l = false) :
    found? (joined s.body) = some s.content.toList := by
  obtain ⟨l, block, hblock⟩ := List.exists_cons_of_ne_nil s.block_ne_nil
  have hbody : s.body = s.above ++ s.opening :: (l :: block ++ fence :: s.below) := by
    rw [← hblock]
    rfl
  have hfence : ∀ k ∈ block, ¬ fence <+: k := fun k hk =>
    h.content_unfenced k (hblock ▸ List.mem_cons_of_mem l hk)
  rw [hbody, found?_joined (hbody ▸ h.newline_notMem) hsilent h.opens hfence List.prefix_rfl,
    ← hblock]
  exact congrArg some s.joined_block

theorem found?_body_of_prose (h : s.IsWritten) {before after : List (List Char)} {l m : List Char}
    (hsplit : s.above = before ++ l :: m :: after) (hbefore : ∀ k ∈ before, Mind.opens k = false)
    (hl : Mind.opens l = true) : found? (joined s.body) = some (joined (m :: after)) := by
  have hbody : s.body =
      before ++ l :: (m :: after ++ s.opening :: (s.block ++ fence :: s.below)) := by
    simp [body, hsplit]
  have hfence : ∀ k ∈ after, ¬ fence <+: k := fun k hk =>
    (h.above k (by simp [hsplit, hk])).unfenced
  have hopening : fence <+: s.opening := by
    have hmarks : ∀ m ∈ marks, fence <+: m := by decide
    exact hmarks _ h.opening
  rw [hbody]
  exact found?_joined (hbody ▸ h.newline_notMem) hbefore hl hfence hopening

theorem found?_body_of_last (h : s.IsWritten) {before : List (List Char)} {l : List Char}
    (hsplit : s.above = before ++ [l]) (hbefore : ∀ k ∈ before, Mind.opens k = false)
    (hl : Mind.opens l = true) : found? (joined s.body) = some (joined (s.opening :: s.block)) := by
  have hbody : s.body = before ++ l :: (s.opening :: s.block ++ fence :: s.below) := by
    simp [body, hsplit]
  rw [hbody]
  exact found?_joined (hbody ▸ h.newline_notMem) hbefore hl h.content_unfenced List.prefix_rfl

/-- The block of a section is found exactly where no prose above it opens another one, or one of the
same content. -/
theorem found?_body_iff (h : s.IsWritten) : found? (joined s.body) = some s.content.toList ↔
    ∀ before l after, s.above = before ++ l :: after → (∀ k ∈ before, Mind.opens k = false) →
      Mind.opens l = true → joined after = s.content.toList := by
  constructor
  · intro hfound before l after hsplit hbefore hl
    cases after with
    | nil =>
      have hlast := found?_body_of_last h hsplit hbefore hl
      rw [hfound, joined_cons _ s.block_ne_nil, joined_block] at hlast
      have hlength := congrArg List.length (Option.some.inj hlast)
      simp at hlength
      omega
    | cons m after =>
      have hprose := found?_body_of_prose h hsplit hbefore hl
      exact Option.some.inj (hprose.symm.trans hfound)
  · intro hfirst
    cases hfind : s.above.find? Mind.opens with
    | none =>
      refine found?_body_of_silent h fun l hl => ?_
      simpa using List.find?_eq_none.mp hfind l hl
    | some l =>
      obtain ⟨hl, before, after, hsplit, hbefore⟩ := List.find?_eq_some_iff_append.mp hfind
      have hsilent : ∀ k ∈ before, Mind.opens k = false := fun k hk => by simpa using hbefore k hk
      have hcontent := hfirst before l after hsplit hsilent hl
      cases after with
      | nil => exact absurd hcontent.symm h.content_nonempty
      | cons m after => rw [found?_body_of_prose h hsplit hsilent hl, hcontent]

end Fenced

section
variable {doc : List Fenced}

theorem block?_bodyText (ls : List (List Char)) :
    block? (bodyText ls) = (found? (joined ls)).map String.ofList := by
  rw [bodyText_eq, block?_eq, String.toList_ofList, found?_trim]

/-- Where all contents are quiet, the sections are those that were written. -/
theorem sections_document (h : ∀ s ∈ doc, s.IsWritten) (hquiet : ∀ s ∈ doc, s.IsQuiet)
    (hdistinct : (doc.map Fenced.heading).Nodup) :
    sections (document doc) =
      Entries.ofNames (doc.map fun s => (s.heading, .str (bodyText s.body))) := by
  have hunbroken : ∀ l ∈ layout (doc.map Fenced.chunk), Unbroken l := by
    intro l hl
    obtain ⟨c, hc, hmem⟩ := List.mem_flatMap.mp hl
    obtain ⟨s, hs, rfl⟩ := List.mem_map.mp hc
    rcases List.mem_cons.mp hmem with rfl | hbody
    · exact unbroken_headline (h s hs).heading_line
    · exact (h s hs).unbroken (hquiet s hs) l hbody
  have hplain : ∀ c ∈ doc.map Fenced.chunk, c.IsPlain := by
    intro c hc
    obtain ⟨s, hs, rfl⟩ := List.mem_map.mp hc
    exact (h s hs).isPlain (hquiet s hs)
  have hentries : (doc.map Fenced.chunk).map Chunk.entry =
      doc.map fun s => (s.heading, .str (bodyText s.body)) := by
    rw [List.map_map]
    rfl
  rw [document, sections_joined hunbroken, chunksFrom_layout hplain none, Option.toList_none,
    List.nil_append, hentries]
  refine Entries.ofList_ofNames_of_nodup ?_
  rw [List.map_map]
  exact hdistinct

/-- A content that is found as the block of a chunk of any text is quiet. -/
theorem isQuiet_of_found {s : Fenced} {text : List Char} {c : Chunk}
    (hc : c ∈ chunksFrom none (lines text))
    (hfound : found? (joined c.2) = some s.content.toList) : s.IsQuiet := by
  have hline : ∀ l ∈ c.2, l ∈ lines text ∧ heading? l = none := by
    intro l hl
    rcases plain_of_mem_chunksFrom hc hl with ⟨_, hnone, -⟩ | hplain
    · cases hnone
    · exact hplain
  have hmem : ∀ l ∈ s.block, l ∈ c.2 := fun l hl =>
    mem_of_mem_found? (fun l hl => (unbroken_of_mem_lines (hline l hl).1).newline_notMem) hfound hl
  constructor
  case breaks =>
    intro d hd hbreak
    rcases eq_or_mem_of_mem_joined (s.joined_block ▸ hd) with hnewline | ⟨l, hl, hdl⟩
    · exact hnewline
    · have hfalse := unbroken_of_mem_lines (hline l (hmem l hl)).1 d hdl
      rw [hbreak] at hfalse
      cases hfalse
  case plain => exact fun l hl => heading?_eq_none_iff.mp (hline l (hmem l hl)).2

/-- A value that shows the text of a block, and that no body without one stands for. -/
def shown (b : String) : Value := .list [.str b]

theorem eq_of_standsFor_shown {body content : String}
    (h : standsFor shown (.str body) = shown content) :
    block? body = some content := by
  unfold standsFor at h
  cases hblock : block? body with
  | none =>
    rw [Value.text?, Option.bind_some, hblock] at h
    cases h
  | some b =>
    rw [Value.text?, Option.bind_some, hblock] at h
    cases h
    rfl

/-- Where every block comes through, each section stands for what its block is loaded as. -/
theorem parseBy_of_kept (h : ∀ s ∈ doc, s.IsWritten) (hdistinct : (doc.map Fenced.heading).Nodup)
    (hkept : ∀ s ∈ doc, s.IsKept) {load : String → Yaml.Read Value}
    {value : Fenced → Value} (hload : ∀ s ∈ doc, load s.content = .ok (value s)) :
    parseBy load (document doc) =
      pure (.ok (Entries.ofNames (doc.map fun s => (s.heading, value s)))) := by
  let data : String → Value := fun b => (load b).toOption.getD .null
  have hblock : ∀ s ∈ doc, block? (bodyText s.body) = some s.content := by
    intro s hs
    rw [block?_bodyText, (Fenced.found?_body_iff (h s hs)).mpr (hkept s hs).first, Option.map_some,
      String.ofList_toList]
  have hdata : ∀ s ∈ doc, data s.content = value s := by
    intro s hs
    simp only [data, hload s hs]
    rfl
  have hloads : ∀ e ∈ sections (document doc), ∀ b, e.2.text?.bind block? = some b →
      load b = .ok (data b) := by
    intro e he b hb
    rw [sections_document h (fun s hs => (hkept s hs).quiet) hdistinct] at he
    obtain ⟨p, hp, rfl⟩ := List.mem_map.mp he
    obtain ⟨s, hs, rfl⟩ := List.mem_map.mp hp
    simp only [Value.text?, Option.bind_some, hblock s hs, Option.some.injEq] at hb
    subst hb
    rw [hdata s hs]
    exact hload s hs
  rw [parseBy, sectionValues_eq hloads,
    sections_document h (fun s hs => (hkept s hs).quiet) hdistinct, Entries.ofNames,
    Entries.ofNames, List.map_map, List.map_map, List.map_map]
  refine congrArg (fun es => pure (Except.ok es)) (List.map_congr_left fun s hs => ?_)
  simp only [Function.comp_apply, standsFor, Value.text?, Option.bind_some, hblock s hs,
    Option.elim_some, hdata s hs]

/-- If every loader is given the blocks of a document as they were written, they came through. -/
theorem kept_of_parseBy (h : ∀ s ∈ doc, s.IsWritten) (hdistinct : (doc.map Fenced.heading).Nodup)
    (hparse : parseBy (fun b => .ok (shown b)) (document doc) =
      pure (.ok (Entries.ofNames (doc.map fun s => (s.heading, shown s.content))))) :
    ∀ s ∈ doc, s.IsKept := by
  have hloaded : parseBy (fun b => .ok (shown b)) (document doc) =
      pure (.ok ((sections (document doc)).map fun e => (e.1, standsFor shown e.2))) :=
    sectionValues_eq fun _ _ _ _ => rfl
  rw [hloaded] at hparse
  have hvalues := Except.ok.inj (congrArg Report.value hparse)
  -- A value that shows a content comes from a block of some chunk, whichever its heading; the lines
  -- of that block are lines of the text and no headings.
  have hquiet : ∀ s ∈ doc, s.IsQuiet := by
    intro s hs
    have hmem : (Key.str s.heading, shown s.content) ∈
        (sections (document doc)).map fun e => (e.1, standsFor shown e.2) := by
      rw [hvalues]
      exact List.mem_map.mpr ⟨_, List.mem_map.mpr ⟨s, hs, rfl⟩, rfl⟩
    obtain ⟨e, he, hvalue⟩ := List.mem_map.mp hmem
    rw [sections_eq] at he
    obtain ⟨p, hp, hbody⟩ := Entries.exists_of_mem_ofList_ofNames he
    obtain ⟨c, hc, rfl⟩ := List.mem_map.mp hp
    have hstands : standsFor shown (.str (bodyText c.2)) = shown s.content :=
      (congrArg (standsFor shown) hbody).trans (congrArg Prod.snd hvalue)
    have hfound := eq_of_standsFor_shown hstands
    rw [block?_bodyText] at hfound
    obtain ⟨cs, hcs, hcontent⟩ := Option.map_eq_some_iff.mp hfound
    exact isQuiet_of_found hc (by rw [hcs, ← hcontent, String.toList_ofList])
  -- So the chunks are the sections, and each value shows the block that is found in its own.
  intro s hs
  refine ⟨hquiet s hs, (Fenced.found?_body_iff (h s hs)).mp ?_⟩
  rw [sections_document h hquiet hdistinct, Entries.ofNames, Entries.ofNames, List.map_map,
    List.map_map, List.map_map] at hvalues
  have hsame := List.map_inj_left.mp hvalues s hs
  simp only [Function.comp_apply, Prod.mk.injEq] at hsame
  have hfound := eq_of_standsFor_shown hsame.2
  rw [block?_bodyText] at hfound
  obtain ⟨cs, hcs, hcontent⟩ := Option.map_eq_some_iff.mp hfound
  rw [hcs, ← hcontent, String.toList_ofList]

/-- In a document of sections with a fenced block each, under headings that differ, the sections
stand, in order, for what any loader makes of their blocks exactly when every block comes through.
Reading the sections of a text is doing so with the loader that a reader of documents is. -/
theorem blocks_load_iff (h : ∀ s ∈ doc, s.IsWritten) (hdistinct : (doc.map Fenced.heading).Nodup) :
    (∀ reader : Yaml.Reader, parseBy (fun block => reader.read (.text block)) =
        fun text => parseSections text reader) ∧
      ((∀ (load : String → Yaml.Read Value) (value : Fenced → Value),
          (∀ s ∈ doc, load s.content = .ok (value s)) →
          parseBy load (document doc) =
            pure (.ok (Entries.ofNames (doc.map fun s => (s.heading, value s))))) ↔
        ∀ s ∈ doc, s.IsKept) := by
  refine ⟨fun _ => rfl, fun hall => ?_, fun hkept load value hload => ?_⟩
  · exact kept_of_parseBy h hdistinct (hall _ (fun s => shown s.content) fun _ _ => rfl)
  · exact parseBy_of_kept h hdistinct hkept hload

end

/-- Two sections whose contents hold comments, though none that reads like a heading. -/
def annotated : List Fenced :=
  [⟨"Weights", ["See below.".toList], fence ++ "yaml".toList, "#all\nlist:\n\n  # last\n  - 1",
      [[]]⟩,
    ⟨"Limits", [], fence ++ "yml".toList, "low: 2", ["## more".toList]⟩]

theorem blocks_load_iff_annotated : (∀ s ∈ annotated, s.IsWritten) ∧
    (annotated.map Fenced.heading).Nodup ∧ (∀ s ∈ annotated, s.IsKept) ∧
    ∃ value : Fenced → Value,
      (∀ s ∈ annotated, Yaml.reader.read (.text s.content) = .ok (value s)) ∧
      parseSections (document annotated) =
        pure (.ok (Entries.ofNames (annotated.map fun s => (s.heading, value s)))) := by
  have hwritten : ∀ s ∈ annotated, s.IsWritten := by
    intro s hs
    simp only [annotated, List.mem_cons, List.not_mem_nil, or_false] at hs
    rcases hs with rfl | rfl
    · exact ⟨by decide +kernel, by simp [Unbroken, isLineBreak],
        List.forall_mem_singleton.mpr
          ⟨by simp [Unbroken, isLineBreak], by decide +kernel, by decide +kernel⟩,
        by decide, by simp, by decide +kernel,
        List.forall_mem_singleton.mpr ⟨unbroken_nil, by decide, by decide⟩⟩
    · exact ⟨by decide +kernel, by simp [Unbroken, isLineBreak], List.forall_mem_nil _, by decide,
        by simp, by decide +kernel, List.forall_mem_singleton.mpr
          ⟨by simp [Unbroken, isLineBreak], by decide +kernel, by decide +kernel⟩⟩
  have hdistinct : (annotated.map Fenced.heading).Nodup := by decide
  have hkept : ∀ s ∈ annotated, s.IsKept := by
    have hfound : ∀ s ∈ annotated, found? (joined s.body) = some s.content.toList ∧
        ∀ l ∈ s.block, ¬ ['#', ' '] <+: l := by decide +kernel
    have hbreaks : ∀ s ∈ annotated, ∀ c ∈ s.content.toList, isLineBreak c = true → c = '\n' := by
      simp [annotated, isLineBreak]
    intro s hs
    exact ⟨⟨hbreaks s hs, (hfound s hs).2⟩,
      (Fenced.found?_body_iff (hwritten s hs)).mp (hfound s hs).1⟩
  let value : Fenced → Value := fun s => (Yaml.reader.read (.text s.content)).toOption.getD .null
  have hload : ∀ s ∈ annotated, Yaml.reader.read (.text s.content) = .ok (value s) := by
    have hreads : ∀ s ∈ annotated, (Yaml.reader.read (.text s.content)).toOption.isSome = true := by
      decide +kernel
    intro s hs
    obtain ⟨v, hv⟩ := isSome_toOption_iff.mp (hreads s hs)
    simp only [value, hv]
    rfl
  obtain ⟨hreads, hiff⟩ := blocks_load_iff hwritten hdistinct
  have hparse := hiff.mpr hkept (fun block => Yaml.reader.read (.text block)) value hload
  exact ⟨hwritten, hdistinct, hkept, value, hload,
    (congrFun (hreads Yaml.reader) (document annotated)).symm.trans hparse⟩

/-- A section whose content begins with a comment. -/
def commented : Fenced :=
  ⟨"Rule", [], fence ++ "yaml".toList, "# a comment\nname: Example", [[]]⟩

/-- The comment ends the section: its block is lost, though it can be loaded. -/
theorem comment_ends_block : commented.IsWritten ∧
    document [commented] =
      "# Rule\n\x60\x60\x60yaml\n# a comment\nname: Example\n\x60\x60\x60\n" ∧
    (∃ v, Yaml.reader.read (.text commented.content) = .ok v) ∧
    parseSections (document [commented]) = pure (.ok (Entries.ofNames
      [("Rule", .str "\x60\x60\x60yaml"), ("a comment", .str "name: Example\n\x60\x60\x60")])) := by
  have hwritten : commented.IsWritten :=
    ⟨by decide +kernel, by simp [commented, Unbroken, isLineBreak], List.forall_mem_nil _,
      by decide, by simp [commented], by decide +kernel,
      List.forall_mem_singleton.mpr ⟨unbroken_nil, by decide, by decide⟩⟩
  have hreads : (Yaml.reader.read (.text commented.content)).toOption.isSome = true := by
    decide +kernel
  exact ⟨hwritten, by decide +kernel, isSome_toOption_iff.mp hreads, by rfl⟩

end DecisionGate.Mind
