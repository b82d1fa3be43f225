import DecisionGate.Proofs.Memory

/-!
# Variables written in place

The variables of an environment are written to a copy of a document, which lies in memory with the
same sharing, in place: from one mapping into the next, which is made where none stands, and into
the last. This module compares that with what is written to a document as a tree.

As long as no mapping that the path goes through stands in a second place, the memory then shows the
tree that was written to, and every mapping that was not passed, the document that was copied among
them, is as it was. No write makes a path of another one go through a mapping that is neither new
nor was gone through before, so that carries over to all the writes of an environment, in any order.
Where a mapping on the way stands in a second place it fails, and the last result has a small
document with one.
-/
namespace DecisionGate

namespace Cell

/-- Under every key stands what was put, or what stood there. -/
theorem find?_put (cell : Cell) (k k' : Key) (x : Held) :
    (cell.put k x).find? k' = some x ∨ (cell.put k x).find? k' = cell.find? k' := by
  induction cell with
  | nil =>
    simp only [put, find?]
    split
    · exact .inl rfl
    · exact .inr rfl
  | cons e rest ih =>
    simp only [put]
    split
    · simp only [find?]
      split
      · exact .inl rfl
      · exact .inr rfl
    · simp only [find?]
      split
      · exact .inr rfl
      · exact ih

end Cell

namespace Memory

/-- A new mapping, with nothing in it, under a name. -/
def withNew (m : Memory) (a : Nat) (name : String) : Memory :=
  m.modify a (Cell.put (.str name) (.address m.length)) ++ [[]]

/-- The mapping under a name, which is made where no mapping stands. -/
def enter (m : Memory) (a : Nat) (name : String) : Memory × Nat :=
  match (m.getD a []).find? (.str name) with
  | some (.address b) => (m, b)
  | _ => (m.withNew a name, m.length)

/-- Sets a name below a path, in the mappings that stand there. -/
def writeAt (m : Memory) (a : Nat) (path : List String) (name : String) (v : Value) : Memory :=
  match path with
  | [] => m.modify a (Cell.put (.str name) (.scalar v))
  | step :: rest => (m.enter a step).1.writeAt (m.enter a step).2 rest name v

/-- The mappings that a path goes through, as far as there are some. -/
def trail (m : Memory) (a : Nat) : List String → List Nat
  | [] => [a]
  | step :: rest =>
    a :: match (m.getD a []).find? (.str step) with
      | some (.address b) => m.trail b rest
      | _ => []

variable {m m' : Memory} {a b : Nat} {cell : Cell} {es : Entries} {name : String} {v : Value}
  {passed inner : List Nat}

theorem ShowsFound.child_address
    (h : ShowsFound m (some (.address b)) (es.get? name) inner) :
    Shows m (.address b) (.map (es.child name)) inner := by
  unfold Entries.child
  generalize es.get? name = value at h ⊢
  cases h with
  | found hshows =>
    cases hshows with
    | map hcell hentries => exact .map hcell hentries

theorem ShowsFound.child_other {x : Option Held} (h : ShowsFound m x (es.get? name) inner)
    (hx : ∀ b, x ≠ some (.address b)) : es.child name = [] := by
  unfold Entries.child
  generalize es.get? name = value at h ⊢
  cases h with
  | missing => rfl
  | found hshows =>
    cases hshows with
    | scalar hentries _ =>
      split
      · next es hvalue =>
        obtain rfl := Option.some.inj hvalue
        cases hentries
      · rfl
    | list _ => rfl
    | map _ _ => exact absurd rfl (hx _)

theorem enter_address (hcell : m[a]? = some cell) (h : cell.find? (.str name) = some (.address b)) :
    m.enter a name = (m, b) := by
  simp [enter, hcell, h]

theorem enter_other (hcell : m[a]? = some cell)
    (h : ∀ b, cell.find? (.str name) ≠ some (.address b)) :
    m.enter a name = (m.withNew a name, m.length) := by
  simp only [enter, List.getD_eq_getElem?_getD, hcell, Option.getD_some]

theorem length_withNew (m : Memory) (a : Nat) (name : String) :
    (m.withNew a name).length = m.length + 1 := by
  simp [withNew]

theorem withNew_new (m : Memory) (a : Nat) (name : String) :
    (m.withNew a name)[m.length]? = some [] := by
  simp [withNew]

theorem withNew_self (hcell : m[a]? = some cell) (name : String) :
    (m.withNew a name)[a]? = some (cell.put (.str name) (.address m.length)) := by
  obtain ⟨hlt, rfl⟩ := List.getElem?_eq_some_iff.mp hcell
  simp [withNew, List.getElem?_append, hlt]

theorem withNew_of_ne (hb : b < m.length) (hne : b ≠ a) (name : String) :
    (m.withNew a name)[b]? = m[b]? := by
  simp [withNew, List.getElem?_append, hb, Ne.symm hne]

theorem trail_cons_address (hcell : m[a]? = some cell)
    (h : cell.find? (.str name) = some (.address b)) (path : List String) :
    m.trail a (name :: path) = a :: m.trail b path := by
  simp [trail, hcell, h]

theorem trail_cons_other (hcell : m[a]? = some cell)
    (h : ∀ b, cell.find? (.str name) ≠ some (.address b)) (path : List String) :
    m.trail a (name :: path) = [a] := by
  simp only [trail, List.getD_eq_getElem?_getD, hcell, Option.getD_some]

/-- The mappings that a path goes through are passed by what the memory shows. -/
theorem mem_passed_of_mem_trail {path : List String}
    (hshows : Shows m (.address a) (.map es) passed) (h : b ∈ m.trail a path) : b ∈ passed := by
  induction path generalizing a es passed with
  | nil =>
    obtain ⟨cell, passed, rfl, -, -⟩ := hshows.cell
    exact List.mem_singleton.mp h ▸ List.mem_cons_self
  | cons step path ih =>
    obtain ⟨cell, passed, rfl, hcell, hcells⟩ := hshows.cell
    obtain ⟨before, inner, after, rfl, hfound, -⟩ := ShowsEntries.at_key hcells (.str step)
    by_cases haddress : ∃ c, cell.find? (.str step) = some (.address c)
    · obtain ⟨c, hc⟩ := haddress
      rw [trail_cons_address hcell hc] at h
      rw [hc] at hfound
      rcases List.mem_cons.mp h with rfl | hbelow
      · exact List.mem_cons_self
      · have hinner := ih hfound.child_address hbelow
        simp [hinner]
    · rw [trail_cons_other hcell (not_exists.mp haddress)] at h
      exact List.mem_singleton.mp h ▸ List.mem_cons_self

/-- What is written in place is what is written to the document that the memory shows, where no
mapping that the path goes through stands in a second place. -/
theorem rewrites_writeAt (hentries : v.entries? = none) (hitems : v.items? = none)
    (path : List String) (name : String) (hshows : Shows m (.address a) (.map es) passed)
    (halone : ∀ b ∈ m.trail a path, passed.count b ≤ 1) :
    Rewrites m passed (m.trail a path) (m.writeAt a path name v) a
      (Config.setAt es path name v) := by
  induction path generalizing m a es passed with
  | nil =>
    obtain ⟨cell, passed, rfl, hcell, hcells⟩ := hshows.cell
    have ha := halone a (by simp [trail])
    obtain ⟨inner, -, -, -, hput⟩ := rewrites_put hcell hcells ha (.str name)
    refine hput _ (.scalar v) v [] [] ?_ ?_ (List.forall_mem_nil _) ?_
      (.scalar hentries hitems) ⟨?_, ?_⟩
    · simp [writeAt]
    · simp [writeAt, hcell]
    · intro b _ hb _
      simp [writeAt, Ne.symm hb]
    · simp
    · simp
  | cons step path ih =>
    obtain ⟨cell, passed, rfl, hcell, hcells⟩ := hshows.cell
    have ha := halone a (by simp [trail])
    obtain ⟨inner, hfound, hout, hcount, hput⟩ := rewrites_put hcell hcells ha (.str step)
    have hlt := (List.getElem?_eq_some_iff.mp hcell).1
    rw [Config.setAt_cons, writeAt]
    by_cases haddress : ∃ b, cell.find? (.str step) = some (.address b)
    · obtain ⟨b, hb⟩ := haddress
      rw [hb] at hfound
      rw [trail_cons_address hcell hb] at halone ⊢
      have hbelow : ∀ c ∈ m.trail b path, c ∈ inner ∧ (a :: passed).count c ≤ 1 := fun c hc =>
        ⟨mem_passed_of_mem_trail hfound.child_address hc, halone c (List.mem_cons_of_mem a hc)⟩
      have hwritten := ih hfound.child_address fun c hc => by
        have := hcount c
        have := (hbelow c hc).2
        simp only [List.count_cons] at this
        omega
      obtain ⟨inner', hshows', hoften⟩ := hwritten.shows
      rw [enter_address hcell hb]
      refine hput _ (.address b) _ inner' _ hwritten.grows ?_ hbelow ?_ hshows' hoften
      · rw [Cell.put_of_find? hb, ← hcell]
        exact hwritten.frame a hlt fun hin => hout (hbelow a hin).1
      · exact fun c hc _ hnot => hwritten.frame c hc hnot
    · have hother := not_exists.mp haddress
      have hnew : Shows (m.withNew a step) (.address m.length) (.map []) [m.length] :=
        .map (m.withNew_new a step) .nil
      have hwritten := ih hnew fun c _ => List.count_le_length
      have hkept : ∀ c < m.length,
          ((m.withNew a step).writeAt m.length path name v)[c]? = (m.withNew a step)[c]? := by
        intro c hc
        refine hwritten.frame c ?_ fun hin => ?_
        · exact Nat.lt_of_lt_of_eq (Nat.lt_succ_of_lt hc) (m.length_withNew a step).symm
        · exact hc.ne (List.mem_singleton.mp (mem_passed_of_mem_trail hnew hin))
      obtain ⟨inner', hshows', hold, hfresh⟩ := hwritten.shows
      have hgrows := hwritten.grows
      rw [length_withNew] at hold hfresh hgrows
      rw [enter_other hcell hother, trail_cons_other hcell hother, hfound.child_other hother]
      refine hput _ (.address m.length) _ inner' [] ?_ ?_ (List.forall_mem_nil _) ?_
        hshows' ⟨?_, ?_⟩
      · exact Nat.le_of_succ_le hgrows
      · exact (hkept a hlt).trans (withNew_self hcell step)
      · exact fun c hc hne _ => (hkept c hc).trans (withNew_of_ne hc hne step)
      · intro c hc
        have hnone : [m.length].count c = 0 := List.count_eq_zero.mpr (by simpa using hc.ne)
        exact (hnone ▸ hold c (Nat.lt_succ_of_lt hc)).trans (Nat.zero_le _)
      · intro c hc
        rcases Nat.eq_or_lt_of_le hc with rfl | hc
        · exact (hold _ (Nat.lt_succ_self _)).trans List.count_le_length
        · exact hfresh c hc

/-- At one address a mapping has another one under a key. -/
def Leads (m : Memory) (a : Nat) (k : Key) (b : Nat) : Prop :=
  ∃ cell, m[a]? = some cell ∧ cell.find? k = some (.address b)

theorem mem_trail_cons {path : List String} : b ∈ m.trail a (name :: path) ↔
    b = a ∨ ∃ c, m.Leads a (.str name) c ∧ b ∈ m.trail c path := by
  cases hcell : m[a]? with
  | none => simp [trail, Leads, hcell, Cell.find?]
  | some cell =>
    by_cases haddress : ∃ c, cell.find? (.str name) = some (.address c)
    · obtain ⟨c, hc⟩ := haddress
      simp [trail_cons_address hcell hc, Leads, hcell, hc]
    · have hother := not_exists.mp haddress
      simp [trail_cons_other hcell hother, Leads, hcell, hother]

theorem trail_of_length_le (h : m.length ≤ a) (path : List String) : m.trail a path = [a] := by
  cases path with
  | nil => rfl
  | cons step path => simp [trail, List.getElem?_eq_none h, Cell.find?]

theorem Leads.of_withNew {c : Nat} {k : Key} (h : (m.withNew a name).Leads c k b) :
    m.Leads c k b ∨ m.length ≤ b := by
  obtain ⟨cell', hcell', hfind⟩ := h
  rcases Nat.lt_trichotomy c m.length with hlt | rfl | hgt
  · by_cases hca : c = a
    · subst hca
      obtain ⟨cell, hcell⟩ : ∃ cell, m[c]? = some cell := ⟨_, List.getElem?_eq_getElem hlt⟩
      obtain rfl := Option.some.inj ((withNew_self hcell name).symm.trans hcell')
      rcases cell.find?_put (.str name) k (.address m.length) with hnew | hold
      · cases hnew.symm.trans hfind
        exact .inr (Nat.le_refl _)
      · exact .inl ⟨cell, hcell, hold ▸ hfind⟩
    · rw [withNew_of_ne hlt hca] at hcell'
      exact .inl ⟨cell', hcell', hfind⟩
  · obtain rfl := Option.some.inj ((m.withNew_new a name).symm.trans hcell')
    cases hfind
  · rw [List.getElem?_eq_none (by rw [length_withNew]; omega)] at hcell'
    cases hcell'

/-- A mapping that one comes to after a write was there before it, or is new. -/
theorem Leads.of_writeAt {path : List String} {c : Nat} {k : Key}
    (h : (m.writeAt a path name v).Leads c k b) : m.Leads c k b ∨ m.length ≤ b := by
  induction path generalizing m a with
  | nil =>
    obtain ⟨cell', hcell', hfind⟩ := h
    rw [writeAt, List.getElem?_modify] at hcell'
    obtain ⟨cell, hcell, rfl⟩ := Option.map_eq_some_iff.mp hcell'
    split at hfind
    · rcases cell.find?_put (.str name) k (.scalar v) with hnew | hold
      · cases hnew.symm.trans hfind
      · exact .inl ⟨cell, hcell, hold ▸ hfind⟩
    · exact .inl ⟨cell, hcell, hfind⟩
  | cons step path ih =>
    rw [writeAt, enter] at h
    split at h
    · exact ih h
    · rcases ih h with hnew | hfar
      · exact hnew.of_withNew
      · rw [length_withNew] at hfar
        exact .inr (Nat.le_of_succ_le hfar)

/-- After a write a path goes through what it went through before, or through what is new. -/
theorem mem_trail_of_writeAt {path under : List String} {c : Nat}
    (h : b ∈ (m.writeAt a path name v).trail c under) : b ∈ m.trail c under ∨ m.length ≤ b := by
  induction under generalizing c with
  | nil => exact .inl h
  | cons step under ih =>
    rcases mem_trail_cons.mp h with rfl | ⟨d, hleads, hbelow⟩
    · exact .inl (mem_trail_cons.mpr (.inl rfl))
    · rcases hleads.of_writeAt, ih hbelow with ⟨hd | hfar, hb | hb⟩
      · exact .inl (mem_trail_cons.mpr (.inr ⟨d, hd, hb⟩))
      · exact .inr hb
      · rw [trail_of_length_le hfar] at hb
        exact .inr (List.mem_singleton.mp hb ▸ hfar)
      · exact .inr hb

/-- Values written in place, one after the other. -/
def writeAll (m : Memory) (a : Nat) (values : List (Config.Override × Value)) : Memory :=
  values.foldl (fun m e => m.writeAt a e.1.path e.1.name e.2) m

theorem rewrites_writeAll {values : List (Config.Override × Value)}
    (hvalues : ∀ e ∈ values, e.2.entries? = none ∧ e.2.items? = none)
    (hshows : Shows m (.address a) (.map es) passed)
    (halone : ∀ e ∈ values, ∀ b ∈ m.trail a e.1.path, passed.count b ≤ 1) :
    Rewrites m passed passed (m.writeAll a values) a (Config.applyAll es values) := by
  induction values generalizing m es passed with
  | nil => exact ⟨⟨passed, hshows, hshows.noOftener⟩, fun _ _ _ => rfl, Nat.le_refl _⟩
  | cons e values ih =>
    obtain ⟨⟨hentries, hitems⟩, hrest⟩ := List.forall_mem_cons.mp hvalues
    obtain ⟨hfirst, hothers⟩ := List.forall_mem_cons.mp halone
    have hwritten := rewrites_writeAt hentries hitems e.1.path e.1.name hshows hfirst
    have hpassed := hwritten.mono fun b hb => mem_passed_of_mem_trail hshows hb
    refine hpassed.trans fun passed' hshows' hoften => ih hrest hshows' fun f hf b hb => ?_
    -- what is new stands once, and what is old no more often than before
    rcases Nat.lt_or_ge b m.length with hlt | hge
    · rcases mem_trail_of_writeAt hb with hbefore | hnew
      · exact (hoften.old b hlt).trans (hothers f hf b hbefore)
      · exact absurd hlt (Nat.not_lt.mpr hnew)
    · exact hoften.fresh b hge

end Memory

namespace Config
open Entries (Reordered)
open Memory (Shows)

/-- A text stands for a scalar. -/
theorem coerce_scalar (raw : String) :
    (coerce raw).entries? = none ∧ (coerce raw).items? = none := by
  unfold coerce
  split
  · exact ⟨rfl, rfl⟩
  · exact ⟨rfl, rfl⟩
  · split
    · split <;> exact ⟨rfl, rfl⟩
    · exact ⟨rfl, rfl⟩

/-- Values written in place over every memory that shows a base, as long as no mapping that their
paths go through stands in a second place. -/
def InPlace (values : List (Override × Value)) (base merged : Entries) : Prop :=
  ∀ (m : Memory) a passed, Shows m (.address a) (.map base) passed →
    (∀ e ∈ values, ∀ b ∈ m.trail a e.1.path, passed.count b ≤ 1) →
    Memory.Rewrites m passed passed (m.writeAll a values) a merged

/-- What the variables that are set make of a document, where it lies in memory. -/
structure OverlaysInPlace (env : Environment) (base merged : Entries) : Prop where
  shows : InPlace (present env) base merged
  anyOrder : ∀ values, values.Perm (present env) →
    ∃ reordered, Reordered reordered merged ∧ InPlace values base reordered
  again : InPlace (present env) merged merged
  twice : InPlace (present env ++ present env) base merged

theorem inPlace_applyAll {env : Environment} {values : List (Override × Value)}
    (hvalues : ∀ e ∈ values, e ∈ present env) (base : Entries) :
    InPlace values base (applyAll base values) := by
  intro m a passed hshows halone
  refine Memory.rewrites_writeAll (fun e he => ?_) hshows halone
  obtain ⟨-, raw, -, hraw⟩ := mem_present.mp (hvalues e he)
  exact hraw ▸ coerce_scalar raw

theorem overlaysInPlace_applyAll (env : Environment) (base : Entries) :
    OverlaysInPlace env base (applyAll base (present env)) where
  shows := inPlace_applyAll (fun _ he => he) base
  anyOrder values hperm := by
    refine ⟨_, ?_, inPlace_applyAll (fun _ he => hperm.mem_iff.mp he) base⟩
    exact (applyAll_perm hperm.symm (present_separate env) base).symm
  again := by
    have h : InPlace (present env) (applyAll base (present env)) _ :=
      inPlace_applyAll (fun _ he => he) _
    rwa [applyAll_present_again] at h
  twice := by
    have hmem : ∀ e ∈ present env ++ present env, e ∈ present env := fun e he => by
      rcases List.mem_append.mp he with he | he <;> exact he
    have h := inPlace_applyAll hmem base
    have htwice : applyAll base (present env ++ present env) =
        applyAll (applyAll base (present env)) (present env) := List.foldl_append
    rwa [htwice, applyAll_present_again] at h

/-- An environment that sets a variable is written over every document that has entries to write
to, and over the defaults where there is no document or an empty one; any other is refused. Writing
in place comes to the same where no mapping that is gone through stands in a second place. -/
theorem overlay_faithful (file : Value) {env : Environment} (hset : IsSet env) :
    (∀ base, base? file = some base →
      ∃ merged, overlay file env = .ok (some merged) ∧ Overlays env base merged ∧
        OverlaysInPlace env base merged) ∧
    (base? file = none → overlay file env = .error (.noMember file.kindName "get")) := by
  constructor
  · intro base hbase
    refine ⟨_, overlay_of_base hset hbase, overlays_applyAll hset base, ?_⟩
    exact overlaysInPlace_applyAll env base
  · intro hbase
    rw [overlay_of_isSet hset, hbase]

/-- A number stands where the mapping of the variable should be, beside an empty mapping that stands
under two names. -/
def sharedAside : Memory :=
  [[(.str "a", .address 1), (.str "b", .address 1), (.str "validation", .scalar (.int 3))], []]

def sharedAsideDocument : Entries :=
  Entries.ofNames [("a", .map []), ("b", .map []), ("validation", .int 3)]

theorem overlay_faithful_number :
    IsSet [("VALIDATION_MINIMUM_SCORE", "7")] ∧
      Shows sharedAside (.address 0) (.map sharedAsideDocument) [0, 1, 1] ∧
      ∃ merged, overlay (.map sharedAsideDocument) [("VALIDATION_MINIMUM_SCORE", "7")] =
          .ok (some merged) ∧
        Overlays [("VALIDATION_MINIMUM_SCORE", "7")] sharedAsideDocument merged ∧
        ∃ passed, Shows
          (sharedAside.writeAll 0 (present [("VALIDATION_MINIMUM_SCORE", "7")])) (.address 0)
          (.map merged) passed := by
  have hset : IsSet [("VALIDATION_MINIMUM_SCORE", "7")] := by
    unfold IsSet
    decide +kernel
  have hempty : Shows sharedAside (.address 1) (.map []) [1] := .map rfl .nil
  have hshows : Shows sharedAside (.address 0) (.map sharedAsideDocument) [0, 1, 1] :=
    .map rfl (.cons _ hempty (.cons _ hempty (.cons _ (.scalar rfl rfl) .nil)))
  obtain ⟨merged, hmerged, hoverlays, hinPlace⟩ :=
    (overlay_faithful (.map sharedAsideDocument) hset).1 _ rfl
  have halone : ∀ e ∈ present [("VALIDATION_MINIMUM_SCORE", "7")],
      ∀ b ∈ sharedAside.trail 0 e.1.path, [0, 1, 1].count b ≤ 1 := by
    decide +kernel
  obtain ⟨passed, hafter, -⟩ := (hinPlace.shows _ _ _ hshows halone).shows
  exact ⟨hset, hshows, merged, hmerged, hoverlays, passed, hafter⟩

/-- One mapping under two names. -/
def aliased : Memory :=
  [[(.str "shared", .address 1), (.str "validation", .address 1)],
    [(.str "strict_mode", .scalar (.bool false))]]

def aliasedDocument (strict : Bool) : Entries :=
  Entries.ofNames [("shared", Value.ofNames [("strict_mode", .bool strict)]),
    ("validation", Value.ofNames [("strict_mode", .bool strict)])]

/-- A document that is a list, and not empty, has no entries to write to. Where one mapping stands
under two names, what is written under one of them is seen under the other. -/
theorem overlay_not_faithful :
    (IsSet [("VALIDATION_MINIMUM_SCORE", "7")] ∧
      overlay (.list [.int 1]) [("VALIDATION_MINIMUM_SCORE", "7")] =
        .error (.noMember "list" "get")) ∧
    IsSet [("VALIDATION_STRICT_MODE", "true")] ∧
      Shows aliased (.address 0) (.map (aliasedDocument false)) [0, 1, 1] ∧
      Shows (aliased.writeAll 0 (present [("VALIDATION_STRICT_MODE", "true")])) (.address 0)
        (.map (aliasedDocument true)) [0, 1, 1] ∧
      ¬ Overlays [("VALIDATION_STRICT_MODE", "true")] (aliasedDocument false)
        (aliasedDocument true) := by
  have hset : IsSet [("VALIDATION_MINIMUM_SCORE", "7")] := by
    unfold IsSet
    decide +kernel
  have hset' : IsSet [("VALIDATION_STRICT_MODE", "true")] := by
    unfold IsSet
    decide +kernel
  refine ⟨⟨hset, overlay_of_isSet hset (.list [.int 1])⟩, hset', ?_, ?_, fun hoverlays => ?_⟩
  · have hinner : Shows aliased (.address 1) (Value.ofNames [("strict_mode", .bool false)]) [1] :=
      .map rfl (.cons _ (.scalar rfl rfl) .nil)
    exact .map rfl (.cons _ hinner (.cons _ hinner .nil))
  · have hinner : Shows (aliased.writeAll 0 (present [("VALIDATION_STRICT_MODE", "true")]))
        (.address 1) (Value.ofNames [("strict_mode", .bool true)]) [1] :=
      .map rfl (.cons _ (.scalar rfl rfl) .nil)
    exact .map rfl (.cons _ hinner (.cons _ hinner .nil))
  · have hapart : ∀ o ∈ overrides, Apart ["shared", "strict_mode"] o.steps := by decide +kernel
    have hframe := hoverlays.frame (["shared", "strict_mode"].map .str) fun o ho _ =>
      (hapart o ho).map fun _ _ heq => Key.str.inj heq
    have hsame := Value.bool.inj (Option.some.inj hframe)
    cases hsame

end Config
end DecisionGate
