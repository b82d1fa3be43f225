import DecisionGate.Proofs.Override

/-!
# Documents in memory

A document that was read lies in memory as mappings at addresses, and an alias in a file can make
one mapping stand in several places. A memory shows a tree, and on the way passes the addresses of
the mappings, those inside of lists too, as often as they stand somewhere. This module says what
becomes of that when an entry of one mapping is put in the place of another: the memory shows the
tree with the entry in place, as long as neither the mapping nor what was changed below the entry
stands in a second place.
-/
namespace DecisionGate

/-- What stands under a key or in a list: a scalar, a list, or a mapping, by its address. -/
inductive Held where
  | scalar (v : Value)
  | list (xs : List Held)
  | address (a : Nat)

/-- The entries of one mapping. -/
abbrev Cell := List (Key × Held)

/-- The mappings, at their addresses. -/
abbrev Memory := List Cell

namespace Cell

def find? (k : Key) : Cell → Option Held
  | [] => none
  | (k', x) :: rest => if k'.sameAs k then some x else find? k rest

def put (k : Key) (x : Held) : Cell → Cell
  | [] => [(k, x)]
  | (k', x') :: rest => if k'.sameAs k then (k', x) :: rest else (k', x') :: put k x rest

theorem put_of_find? {k : Key} {x : Held} {cell : Cell} (h : cell.find? k = some x) :
    cell.put k x = cell := by
  induction cell with
  | nil => cases h
  | cons e rest ih =>
    simp only [find?, put] at h ⊢
    split at h
    · next hsame =>
      obtain rfl := Option.some.inj h
      rw [if_pos hsame]
    · next hsame => rw [if_neg hsame, ih h]

end Cell

namespace Memory

mutual

/-- What a memory shows of what is held, with the addresses that are passed on the way. -/
inductive Shows (m : Memory) : Held → Value → List Nat → Prop
  | scalar {v : Value} : v.entries? = none → v.items? = none → Shows m (.scalar v) v []
  | list {xs : List Held} {items : List Value} {passed : List Nat} :
      ShowsItems m xs items passed → Shows m (.list xs) (.list items) passed
  | map {a : Nat} {cell : Cell} {es : Entries} {passed : List Nat} :
      m[a]? = some cell → ShowsEntries m cell es passed →
      Shows m (.address a) (.map es) (a :: passed)

inductive ShowsItems (m : Memory) : List Held → List Value → List Nat → Prop
  | nil : ShowsItems m [] [] []
  | cons {x : Held} {v : Value} {xs : List Held} {items : List Value} {first rest : List Nat} :
      Shows m x v first → ShowsItems m xs items rest →
      ShowsItems m (x :: xs) (v :: items) (first ++ rest)

inductive ShowsEntries (m : Memory) : Cell → Entries → List Nat → Prop
  | nil : ShowsEntries m [] [] []
  | cons (k : Key) {x : Held} {v : Value} {cell : Cell} {es : Entries} {first rest : List Nat} :
      Shows m x v first → ShowsEntries m cell es rest →
      ShowsEntries m ((k, x) :: cell) ((k, v) :: es) (first ++ rest)

end

variable {m m' : Memory}

mutual

theorem Shows.frame {x : Held} {v : Value} {passed : List Nat} (h : Shows m x v passed)
    (hsame : ∀ a ∈ passed, m'[a]? = m[a]?) : Shows m' x v passed := by
  cases h with
  | scalar hentries hitems => exact .scalar hentries hitems
  | list hitems => exact .list (ShowsItems.frame hitems hsame)
  | map hcell hentries =>
    refine .map ((hsame _ List.mem_cons_self).trans hcell) ?_
    exact ShowsEntries.frame hentries fun a ha => hsame a (List.mem_cons_of_mem _ ha)

theorem ShowsItems.frame {xs : List Held} {items : List Value} {passed : List Nat}
    (h : ShowsItems m xs items passed) (hsame : ∀ a ∈ passed, m'[a]? = m[a]?) :
    ShowsItems m' xs items passed := by
  cases h with
  | nil => exact .nil
  | cons hfirst hrest =>
    exact .cons (Shows.frame hfirst fun a ha => hsame a (List.mem_append_left _ ha))
      (ShowsItems.frame hrest fun a ha => hsame a (List.mem_append_right _ ha))

theorem ShowsEntries.frame {cell : Cell} {es : Entries} {passed : List Nat}
    (h : ShowsEntries m cell es passed) (hsame : ∀ a ∈ passed, m'[a]? = m[a]?) :
    ShowsEntries m' cell es passed := by
  cases h with
  | nil => exact .nil
  | cons k hfirst hrest =>
    exact .cons k (Shows.frame hfirst fun a ha => hsame a (List.mem_append_left _ ha))
      (ShowsEntries.frame hrest fun a ha => hsame a (List.mem_append_right _ ha))

end

mutual

theorem Shows.bounded {x : Held} {v : Value} {passed : List Nat} (h : Shows m x v passed) :
    ∀ a ∈ passed, a < m.length := by
  cases h with
  | scalar _ _ => nofun
  | list hitems => exact ShowsItems.bounded hitems
  | map hcell hentries =>
    have hfirst := (List.getElem?_eq_some_iff.mp hcell).1
    exact List.forall_mem_cons.mpr ⟨hfirst, ShowsEntries.bounded hentries⟩

theorem ShowsItems.bounded {xs : List Held} {items : List Value} {passed : List Nat}
    (h : ShowsItems m xs items passed) : ∀ a ∈ passed, a < m.length := by
  cases h with
  | nil => nofun
  | cons hfirst hrest =>
    exact List.forall_mem_append.mpr ⟨Shows.bounded hfirst, ShowsItems.bounded hrest⟩

theorem ShowsEntries.bounded {cell : Cell} {es : Entries} {passed : List Nat}
    (h : ShowsEntries m cell es passed) : ∀ a ∈ passed, a < m.length := by
  cases h with
  | nil => nofun
  | cons k hfirst hrest =>
    exact List.forall_mem_append.mpr ⟨Shows.bounded hfirst, ShowsEntries.bounded hrest⟩

end

theorem Shows.cell {a : Nat} {es : Entries} {passed : List Nat}
    (h : Shows m (.address a) (.map es) passed) :
    ∃ cell rest, passed = a :: rest ∧ m[a]? = some cell ∧ ShowsEntries m cell es rest := by
  cases h with
  | map hcell hentries => exact ⟨_, _, rfl, hcell, hentries⟩

/-- What a memory shows of an entry that may be missing. -/
inductive ShowsFound (m : Memory) : Option Held → Option Value → List Nat → Prop
  | missing : ShowsFound m none none []
  | found {x : Held} {v : Value} {passed : List Nat} :
      Shows m x v passed → ShowsFound m (some x) (some v) passed

/-- The entry under a key, and what putting another one in its place comes to. -/
theorem ShowsEntries.at_key {cell : Cell} {es : Entries} {passed : List Nat}
    (h : ShowsEntries m cell es passed) (k : Key) :
    ∃ before inner after, passed = before ++ inner ++ after ∧
      ShowsFound m (cell.find? k) (es.find? k) inner ∧
      ∀ m' x' v' inner', (∀ a ∈ before ++ after, m'[a]? = m[a]?) → Shows m' x' v' inner' →
        ShowsEntries m' (cell.put k x') (es.put k v') (before ++ inner' ++ after) := by
  cases h with
  | nil =>
    refine ⟨[], [], [], rfl, .missing, fun m' x' v' inner' _ hnew => ?_⟩
    exact .cons k hnew .nil
  | @cons k' x v cell es first rest hfirst hrest =>
    by_cases hsame : k'.sameAs k = true
    · refine ⟨[], first, rest, rfl, ?_, fun m' x' v' inner' hkept hnew => ?_⟩
      · simp only [Cell.find?, Entries.find?, if_pos hsame]
        exact .found hfirst
      · simp only [Cell.put, Entries.put, if_pos hsame]
        exact .cons k' hnew (ShowsEntries.frame hrest hkept)
    · obtain ⟨before, inner, after, rfl, hfound, hput⟩ := ShowsEntries.at_key hrest k
      refine ⟨first ++ before, inner, after, by simp only [List.append_assoc], ?_, ?_⟩
      · simpa only [Cell.find?, Entries.find?, if_neg hsame] using hfound
      · intro m' x' v' inner' hkept hnew
        rw [List.append_assoc, List.forall_mem_append] at hkept
        simp only [Cell.put, Entries.put, if_neg hsame, List.append_assoc]
        have hnext := hput m' x' v' inner' hkept.2 hnew
        rw [List.append_assoc] at hnext
        exact .cons k' (Shows.frame hfirst hkept.1) hnext

/-- On the way to another tree nothing is passed more often than before, and what is new once at
most. -/
structure NoOftener (m : Memory) (passed passed' : List Nat) : Prop where
  old : ∀ b < m.length, passed'.count b ≤ passed.count b
  fresh : ∀ b, m.length ≤ b → passed'.count b ≤ 1

/-- What is done to the entries at one address: the memory shows other entries there, and is as it
was but for some mappings. -/
structure Rewrites (m : Memory) (passed changed : List Nat) (m' : Memory) (a : Nat)
    (es : Entries) : Prop where
  shows : ∃ passed', Shows m' (.address a) (.map es) passed' ∧ NoOftener m passed passed'
  frame : ∀ b < m.length, b ∉ changed → m'[b]? = m[b]?
  grows : m.length ≤ m'.length

section
variable {m'' : Memory} {a b : Nat} {cell : Cell} {es es' : Entries} {v : Value}
  {passed passed' passed'' inner inner' before after : List Nat}

theorem Shows.noOftener (h : Shows m (.address a) (.map es) passed) :
    NoOftener m passed passed where
  old _ _ := Nat.le_refl _
  fresh b hb := by
    have hout : b ∉ passed := fun hin => Nat.not_lt.mpr hb (Shows.bounded h b hin)
    exact (List.count_eq_zero.mpr hout).le.trans (Nat.zero_le _)

theorem NoOftener.trans (h : NoOftener m passed passed') (h' : NoOftener m' passed' passed'')
    (hgrows : m.length ≤ m'.length) : NoOftener m passed passed'' where
  old b hb := (h'.old b (Nat.lt_of_lt_of_le hb hgrows)).trans (h.old b hb)
  fresh b hb := by
    rcases Nat.lt_or_ge b m'.length with hlt | hge
    · exact (h'.old b hlt).trans (h.fresh b hb)
    · exact h'.fresh b hge

theorem NoOftener.notMem (h : NoOftener m passed passed') (hb : b < m.length) (hout : b ∉ passed) :
    b ∉ passed' := by
  rw [← List.count_eq_zero] at hout ⊢
  exact Nat.le_zero.mp (hout ▸ h.old b hb)

theorem NoOftener.around (h : NoOftener m inner inner')
    (hbounded : ∀ b ∈ before ++ inner ++ after, b < m.length) :
    NoOftener m (before ++ inner ++ after) (before ++ inner' ++ after) where
  old b hb := by
    have hcount := h.old b hb
    simp only [List.count_append]
    omega
  fresh b hb := by
    have hcount := h.fresh b hb
    have hnone : (before ++ inner ++ after).count b = 0 :=
      List.count_eq_zero.mpr fun hin => Nat.not_lt.mpr hb (hbounded b hin)
    simp only [List.count_append] at hnone ⊢
    omega

theorem notMem_around (hcount : (before ++ inner ++ after).count b ≤ 1) (hinner : b ∈ inner) :
    b ∉ before ++ after := by
  have hpos := List.count_pos_iff.mpr hinner
  simp only [List.count_append] at hcount
  rw [← List.count_eq_zero, List.count_append]
  omega

/-- One entry is put in the place of another. Below it some mappings were changed that stand nowhere
else, and what takes its place passes no more than it did, but for what is new. -/
theorem rewrites_put (hcell : m[a]? = some cell) (hentries : ShowsEntries m cell es passed)
    (halone : (a :: passed).count a ≤ 1) (k : Key) :
    ∃ inner, ShowsFound m (cell.find? k) (es.find? k) inner ∧ a ∉ inner ∧
      (∀ b, inner.count b ≤ passed.count b) ∧
      ∀ m' x' v' inner' changed, m.length ≤ m'.length → m'[a]? = some (cell.put k x') →
        (∀ b ∈ changed, b ∈ inner ∧ (a :: passed).count b ≤ 1) →
        (∀ b < m.length, b ≠ a → b ∉ changed → m'[b]? = m[b]?) →
        Shows m' x' v' inner' → NoOftener m inner inner' →
        Rewrites m (a :: passed) (a :: changed) m' a (es.put k v') := by
  obtain ⟨before, inner, after, rfl, hfound, hput⟩ := ShowsEntries.at_key hentries k
  have hbounded : ∀ b ∈ (a :: before) ++ inner ++ after, b < m.length :=
    Shows.bounded (.map hcell hentries)
  have hout : a ∉ before ++ inner ++ after := by
    rw [List.count_cons_self] at halone
    exact List.count_eq_zero.mp (by omega)
  refine ⟨inner, hfound, by grind, fun b => by simp only [List.count_append]; omega, ?_⟩
  intro m' x' v' inner' changed hgrows hcell' hchanged hframe hnew hoften
  -- what is passed around the entry is not the mapping, nor was it changed below the entry
  have hkept : ∀ b ∈ before ++ after, m'[b]? = m[b]? := by
    intro b hb
    have hmem : b ∈ before ++ inner ++ after := by
      rcases List.mem_append.mp hb with hb | hb <;> simp [hb]
    have hne : b ≠ a := fun heq => hout (heq ▸ hmem)
    refine hframe b (hbounded b (List.mem_cons_of_mem a hmem)) hne fun hin => ?_
    obtain ⟨hinner, hcount⟩ := hchanged b hin
    rw [List.count_cons_of_ne hne.symm] at hcount
    exact notMem_around hcount hinner hb
  refine ⟨⟨_, .map hcell' (hput m' x' v' inner' hkept hnew), ?_⟩, fun b hb hnot => ?_, hgrows⟩
  · exact hoften.around hbounded
  · obtain ⟨hne, hkeep⟩ := not_or.mp (List.mem_cons.not.mp hnot)
    exact hframe b hb hne hkeep

theorem Rewrites.mono {changed changed' : List Nat} (h : Rewrites m passed changed m' a es)
    (hsub : ∀ b ∈ changed, b ∈ changed') : Rewrites m passed changed' m' a es :=
  ⟨h.shows, fun b hb hout => h.frame b hb fun hin => hout (hsub b hin), h.grows⟩

theorem Rewrites.trans (h : Rewrites m passed passed m' a es)
    (hnext : ∀ passed', Shows m' (.address a) (.map es) passed' → NoOftener m passed passed' →
      Rewrites m' passed' passed' m'' a es') : Rewrites m passed passed m'' a es' := by
  obtain ⟨passed', hshows, hoften⟩ := h.shows
  have hafter := hnext passed' hshows hoften
  obtain ⟨passed'', hshows', hoften'⟩ := hafter.shows
  refine ⟨⟨passed'', hshows', hoften.trans hoften' h.grows⟩, fun b hb hout => ?_, ?_⟩
  · have hlater := hafter.frame b (Nat.lt_of_lt_of_le hb h.grows) (hoften.notMem hb hout)
    exact hlater.trans (h.frame b hb hout)
  · exact Nat.le_trans h.grows hafter.grows

end

end Memory

end DecisionGate
