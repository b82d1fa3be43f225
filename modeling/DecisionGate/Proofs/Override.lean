import DecisionGate.Config.Overlay
import DecisionGate.Proofs.Acceptance

/-!
# Writing parameters over a document

Each variable writes one value at the end of a path of names, and the mappings on the way are made
where they are missing or where something else stands. No path of the table begins another one, so
a write is seen at its own path and at the paths below and above it, and nowhere else; two writes
may change places, since all that depends on their order is the order in which new entries stand;
and what is written once is found as it is when it is written again.

A document that is empty or missing stands for the defaults. One that is neither empty nor a mapping
has no entries to write to, and is refused.
-/
namespace DecisionGate

/-- Paths of which neither begins the other. -/
def Apart {α : Type} (p q : List α) : Prop := ¬ p <+: q ∧ ¬ q <+: p

instance {α : Type} [DecidableEq α] (p q : List α) : Decidable (Apart p q) :=
  inferInstanceAs (Decidable (_ ∧ _))

section
variable {α : Type} {p q : List α}

theorem Apart.symm (h : Apart p q) : Apart q p := ⟨h.2, h.1⟩

theorem not_apart_nil (p : List α) : ¬ Apart [] p := fun h => h.1 List.nil_prefix

theorem apart_cons {a : α} : Apart (a :: p) (a :: q) ↔ Apart p q := by
  simp [Apart, List.cons_prefix_cons]

theorem Apart.map {β : Type} {f : α → β} (hf : Function.Injective f) (h : Apart p q) :
    Apart (p.map f) (q.map f) := by
  simpa only [Apart, List.prefix_map_iff_of_injective hf] using h

theorem Apart.ne_nil (h : Apart p q) : p ≠ [] := by
  rintro rfl
  exact not_apart_nil q h

/-- The paths that begin with one name. -/
theorem Apart.ne_of_singleton {a b : α} (h : Apart [a] (b :: q)) : a ≠ b := by
  rintro rfl
  exact not_apart_nil q (apart_cons.mp h)

end

namespace Entries

/-- An entry is put where no other key is looked for. -/
theorem find?_put_of_apart {k k' : Key} (hnew : k.sameAs k' = false)
    (hold : ∀ j : Key, j.sameAs k = true → j.sameAs k' = false) (v : Value) (es : Entries) :
    find? k' (es.put k v) = find? k' es := by
  induction es with
  | nil => simp [put, find?, hnew]
  | cons e rest ih =>
    obtain ⟨j, w⟩ := e
    rw [put]
    split
    · next hsame => simp [find?, hold j hsame]
    · simp only [find?, ih]

theorem find?_set_of_ne {k : Key} {name : String} (h : k ≠ .str name) (es : Entries) (v : Value) :
    find? k (es.set name v) = find? k es := by
  have hkey : Key.sameAs (.str name) k = false := by
    cases k with
    | str s => simpa [Key.sameAs] using Ne.symm h
    | _ => rfl
  refine find?_put_of_apart hkey (fun j hj => ?_) v es
  obtain rfl := Config.eq_str_of_sameAs hj
  exact hkey

theorem get?_set_of_ne {name other : String} (h : other ≠ name) (es : Entries) (v : Value) :
    (es.set name v).get? other = es.get? other :=
  find?_set_of_ne (by simpa using h) es v

theorem set_set (es : Entries) (name : String) (v w : Value) :
    (es.set name v).set name w = es.set name w := by
  induction es with
  | nil => simp [set, put, Key.sameAs]
  | cons e rest ih =>
    simp only [set, put] at ih ⊢
    split
    · next hname => simp [put, hname]
    · next hname => simp [put, hname, ih]

theorem set_of_get? {es : Entries} {name : String} {v : Value} (h : es.get? name = some v) :
    es.set name v = es := by
  induction es with
  | nil => cases h
  | cons e rest ih =>
    obtain ⟨k, w⟩ := e
    simp only [get?, find?, set, put] at h ih ⊢
    split at h
    · next hname =>
      obtain rfl := Option.some.inj h
      rw [if_pos hname]
    · next hname => rw [if_neg hname, ih h]

/-- The same mapping: entries with different names have changed places, at any depth. -/
inductive Reordered : Entries → Entries → Prop
  | nil : Reordered [] []
  | cons (k : Key) (v : Value) {es fs : Entries} :
      Reordered es fs → Reordered ((k, v) :: es) ((k, v) :: fs)
  | swap {s t : String} (v w : Value) (es : Entries) : s ≠ t →
      Reordered ((.str s, v) :: (.str t, w) :: es) ((.str t, w) :: (.str s, v) :: es)
  | inside (k : Key) {cs ds : Entries} (es : Entries) :
      Reordered cs ds → Reordered ((k, .map cs) :: es) ((k, .map ds) :: es)
  | trans {es fs gs : Entries} : Reordered es fs → Reordered fs gs → Reordered es gs

namespace Reordered

theorem refl (es : Entries) : Reordered es es := by
  induction es with
  | nil => exact .nil
  | cons e rest ih => exact .cons e.1 e.2 ih

theorem symm {es fs : Entries} (h : Reordered es fs) : Reordered fs es := by
  induction h with
  | nil => exact .nil
  | cons k v _ ih => exact .cons k v ih
  | swap v w es hne => exact .swap w v es hne.symm
  | inside k es _ ih => exact .inside k es ih
  | trans _ _ ih₁ ih₂ => exact ih₂.trans ih₁

theorem set {es fs : Entries} (h : Reordered es fs) (name : String) (v : Value) :
    Reordered (es.set name v) (fs.set name v) := by
  induction h with
  | nil => exact refl _
  | cons k w h ih =>
    simp only [Entries.set, put] at ih ⊢
    split
    · exact .cons k v h
    · exact .cons k w ih
  | @swap s t w u es hne =>
    simp only [Entries.set, put, Key.sameAs_str, beq_iff_eq]
    by_cases hs : s = name
    · have ht : t ≠ name := fun ht => hne (hs.trans ht.symm)
      simp only [if_pos hs, if_neg ht]
      exact .swap v u es hne
    · by_cases ht : t = name
      · simp only [if_neg hs, if_pos ht]
        exact .swap w v es hne
      · simp only [if_neg hs, if_neg ht]
        exact .swap w u _ hne
  | inside k es h ih =>
    simp only [Entries.set, put]
    split
    · exact refl _
    · exact .inside k _ h
  | trans _ _ ih₁ ih₂ => exact ih₁.trans ih₂

theorem set_map {cs ds : Entries} (h : Reordered cs ds) (es : Entries) (name : String) :
    Reordered (es.set name (.map cs)) (es.set name (.map ds)) := by
  induction es with
  | nil => exact .inside _ [] h
  | cons e rest ih =>
    simp only [Entries.set, put] at ih ⊢
    split
    · exact .inside e.1 rest h
    · exact .cons e.1 e.2 ih

end Reordered

/-- Entries that are set under two names come in either order. -/
theorem set_comm {s t : String} (hne : s ≠ t) (es : Entries) (v w : Value) :
    Reordered ((es.set s v).set t w) ((es.set t w).set s v) := by
  have hts : t ≠ s := hne.symm
  induction es with
  | nil =>
    simp only [set, put, Key.sameAs_str, beq_iff_eq, if_neg hne, if_neg hts]
    exact .swap v w [] hne
  | cons e rest ih =>
    obtain ⟨k, u⟩ := e
    simp only [set] at ih ⊢
    by_cases hs : k.sameAs (.str s) = true
    · obtain rfl := Config.eq_str_of_sameAs hs
      simp only [put, Key.sameAs_str, beq_iff_eq, if_neg hne, if_pos]
      exact Reordered.refl _
    · by_cases ht : k.sameAs (.str t) = true
      · obtain rfl := Config.eq_str_of_sameAs ht
        simp only [put, Key.sameAs_str, beq_iff_eq, if_neg hts, if_pos]
        exact Reordered.refl _
      · simp only [put, if_neg hs, if_neg ht]
        exact .cons k u ih

/-- The mapping under a name, the empty one where there is none. -/
def child (es : Entries) (name : String) : Entries :=
  match es.get? name with
  | some (.map es) => es
  | _ => []

theorem child_set_self (es cs : Entries) (name : String) :
    (es.set name (.map cs)).child name = cs := by
  simp [child, get?_set_self]

theorem child_set_of_ne {name other : String} (h : other ≠ name) (es : Entries) (v : Value) :
    (es.set name v).child other = es.child other := by
  simp [child, get?_set_of_ne h]

theorem child_cons (k : Key) (v : Value) (es : Entries) (name : String) :
    child ((k, v) :: es) name =
      if k.sameAs (.str name) then (v.entries?).getD [] else es.child name := by
  simp only [child, get?, find?]
  by_cases hname : k.sameAs (.str name) = true
  · simp only [if_pos hname]
    cases v <;> rfl
  · simp only [if_neg hname]

theorem Reordered.child {es fs : Entries} (h : Reordered es fs) (name : String) :
    Reordered (es.child name) (fs.child name) := by
  induction h with
  | nil => exact refl _
  | cons k v h ih =>
    rw [child_cons, child_cons]
    split
    · exact refl _
    · exact ih
  | @swap s t v w es hne =>
    simp only [child_cons, Key.sameAs_str, beq_iff_eq]
    by_cases hs : s = name
    · have ht : t ≠ name := fun ht => hne (hs.trans ht.symm)
      simp only [if_pos hs, if_neg ht]
      exact refl _
    · simp only [if_neg hs]
      exact refl _
  | inside k es h ih =>
    rw [child_cons, child_cons]
    split
    · exact h
    · exact refl _
  | trans _ _ ih₁ ih₂ => exact ih₁.trans ih₂

end Entries

/-- What stands at the end of a path that goes down through mappings only. -/
def Value.lookup : Value → List Key → Option Value
  | v, [] => some v
  | .map es, k :: rest => (Entries.find? k es).bind fun v => v.lookup rest
  | _, _ :: _ => none

theorem Value.lookup_nil {keys : List Key} (h : keys ≠ []) : (Value.map []).lookup keys = none := by
  obtain ⟨k, rest, rfl⟩ := List.exists_cons_of_ne_nil h
  rfl

namespace Config

open Entries (Reordered)

theorem setAt_nil (es : Entries) (name : String) (v : Value) : setAt es [] name v = es.set name v :=
  rfl

theorem setAt_cons (es : Entries) (step : String) (path : List String) (name : String) (v : Value) :
    setAt es (step :: path) name v = es.set step (.map (setAt (es.child step) path name v)) := rfl

section
variable {name other : String} {v w : Value}

theorem lookup_setAt_self (es : Entries) (path : List String) :
    (Value.map (setAt es path name v)).lookup ((path ++ [name]).map .str) = some v := by
  induction path generalizing es with
  | nil =>
    have h := Entries.get?_set_self es name v
    simp only [Entries.get?] at h
    simp [setAt, Value.lookup, h]
  | cons step path ih =>
    have h := Entries.get?_set_self es step (.map (setAt (es.child step) path name v))
    simp only [Entries.get?] at h
    simpa [setAt_cons, Value.lookup, h] using ih (es.child step)

/-- Below a name, what is found through mappings is found in the mapping under the name. -/
theorem lookup_child (es : Entries) (step : String) {rest : List Key} (hrest : rest ≠ []) :
    (Value.map es).lookup (.str step :: rest) = (Value.map (es.child step)).lookup rest := by
  obtain ⟨k, rest, rfl⟩ := List.exists_cons_of_ne_nil hrest
  simp only [Value.lookup, Entries.child, Entries.get?]
  cases hstep : Entries.find? (.str step) es with
  | none => rfl
  | some u => cases u <;> rfl

/-- A write is not seen from a path apart from its own. -/
theorem lookup_setAt_of_apart {path : List String} {keys : List Key} (es : Entries)
    (h : Apart keys ((path ++ [name]).map .str)) :
    (Value.map (setAt es path name v)).lookup keys = (Value.map es).lookup keys := by
  induction path generalizing es keys with
  | nil =>
    obtain ⟨k, rest, rfl⟩ := List.exists_cons_of_ne_nil h.ne_nil
    have hne : k ≠ .str name := Ne.symm (Apart.ne_of_singleton h.symm)
    simp only [setAt, Value.lookup, Entries.find?_set_of_ne hne]
  | cons step path ih =>
    obtain ⟨k, rest, rfl⟩ := List.exists_cons_of_ne_nil h.ne_nil
    by_cases hk : k = .str step
    · subst hk
      have hrest : Apart rest ((path ++ [name]).map .str) := apart_cons.mp h
      rw [lookup_child _ _ hrest.ne_nil, lookup_child _ _ hrest.ne_nil, setAt_cons,
        Entries.child_set_self]
      exact ih _ hrest
    · simp only [setAt_cons, Value.lookup, Entries.find?_set_of_ne hk]

/-- A value is not changed by being written again. -/
theorem setAt_of_lookup {es : Entries} {path : List String}
    (h : (Value.map es).lookup ((path ++ [name]).map .str) = some v) :
    setAt es path name v = es := by
  induction path generalizing es with
  | nil =>
    refine Entries.set_of_get? ?_
    simpa [Value.lookup, Entries.get?] using h
  | cons step path ih =>
    have hbelow : (Value.map (es.child step)).lookup ((path ++ [name]).map .str) = some v := by
      rw [← lookup_child es step (by simp)]
      exact h
    rw [setAt_cons, ih hbelow]
    refine Entries.set_of_get? ?_
    obtain ⟨k, rest, hrest⟩ := List.exists_cons_of_ne_nil
      (show (path ++ [name]).map Key.str ≠ [] by simp)
    simp only [Entries.child] at hbelow ⊢
    cases hstep : es.get? step with
    | none => simp [hstep, hrest, Value.lookup, Entries.find?] at hbelow
    | some u =>
      cases u with
      | map cs => rfl
      | _ => simp [hstep, hrest, Value.lookup, Entries.find?] at hbelow

theorem setAt_reordered {es fs : Entries} (h : Reordered es fs) (path : List String) :
    Reordered (setAt es path name v) (setAt fs path name v) := by
  induction path generalizing es fs with
  | nil => exact h.set name v
  | cons step path ih =>
    rw [setAt_cons, setAt_cons]
    exact (h.set step _).trans ((ih (h.child step)).set_map fs step)

/-- Two writes whose paths are apart come in either order. -/
theorem setAt_comm {path under : List String} (es : Entries)
    (h : Apart (path ++ [name]) (under ++ [other])) :
    Reordered (setAt (setAt es path name v) under other w)
      (setAt (setAt es under other w) path name v) := by
  induction path generalizing es under with
  | nil =>
    cases under with
    | nil => exact Entries.set_comm (Apart.ne_of_singleton h) es v w
    | cons step under =>
      have hne : step ≠ name := Ne.symm (Apart.ne_of_singleton h)
      simp only [setAt_cons, setAt_nil, Entries.child_set_of_ne hne]
      exact Entries.set_comm hne.symm es v _
  | cons first path ih =>
    cases under with
    | nil =>
      have hne : first ≠ other := Ne.symm (Apart.ne_of_singleton h.symm)
      simp only [setAt_cons, setAt_nil, Entries.child_set_of_ne hne]
      exact Entries.set_comm hne es _ w
    | cons second under =>
      by_cases hfirst : first = second
      · subst hfirst
        simp only [setAt_cons, Entries.child_set_self, Entries.set_set]
        exact (ih _ (apart_cons.mp h)).set_map es first
      · simp only [setAt_cons, Entries.child_set_of_ne hfirst,
          Entries.child_set_of_ne (Ne.symm hfirst)]
        exact Entries.set_comm hfirst es _ _

end

/-- The names that lead to the parameter of a variable, its own the last. -/
def Override.steps (o : Override) : List String := o.path ++ [o.name]

def Override.keys (o : Override) : List Key := o.steps.map .str

theorem apart_keys {o p : Override} (h : Apart o.steps p.steps) : Apart o.keys p.keys :=
  h.map fun _ _ heq => Key.str.inj heq

/-- Writes of which no two are on one path. -/
def Separate (values : List (Override × Value)) : Prop :=
  values.Pairwise fun e f => Apart e.1.steps f.1.steps

theorem applyAll_cons (es : Entries) (e : Override × Value) (values : List (Override × Value)) :
    applyAll es (e :: values) = applyAll (setAt es e.1.path e.1.name e.2) values := rfl

section
variable {values : List (Override × Value)}

theorem lookup_applyAll_of_apart {keys : List Key} (es : Entries)
    (h : ∀ e ∈ values, Apart keys e.1.keys) :
    (Value.map (applyAll es values)).lookup keys = (Value.map es).lookup keys := by
  induction values generalizing es with
  | nil => rfl
  | cons e values ih =>
    rw [applyAll_cons, ih _ fun f hf => h f (List.mem_cons_of_mem e hf),
      lookup_setAt_of_apart es (h e List.mem_cons_self)]

/-- What is written stays: the later writes are on paths apart from it. -/
theorem lookup_applyAll {o : Override} {v : Value} (es : Entries) (hseparate : Separate values)
    (hmem : (o, v) ∈ values) : (Value.map (applyAll es values)).lookup o.keys = some v := by
  induction values generalizing es with
  | nil => cases hmem
  | cons f values ih =>
    obtain ⟨hhead, htail⟩ := List.pairwise_cons.mp hseparate
    rw [applyAll_cons]
    rcases List.mem_cons.mp hmem with rfl | hmem
    · rw [lookup_applyAll_of_apart _ fun g hg => apart_keys (hhead g hg)]
      exact lookup_setAt_self es o.path
    · exact ih _ htail hmem

theorem applyAll_of_lookup {es : Entries}
    (h : ∀ e ∈ values, (Value.map es).lookup e.1.keys = some e.2) : applyAll es values = es := by
  induction values with
  | nil => rfl
  | cons e values ih =>
    rw [applyAll_cons, setAt_of_lookup (h e List.mem_cons_self)]
    exact ih fun f hf => h f (List.mem_cons_of_mem e hf)

theorem applyAll_reordered {es fs : Entries} (h : Reordered es fs) :
    Reordered (applyAll es values) (applyAll fs values) := by
  induction values generalizing es fs with
  | nil => exact h
  | cons e values ih => exact ih (setAt_reordered h e.1.path)

/-- The order of the writes is the order of new entries at most. -/
theorem applyAll_perm {values' : List (Override × Value)} (h : values.Perm values')
    (hseparate : Separate values) (es : Entries) :
    Reordered (applyAll es values) (applyAll es values') := by
  induction h generalizing es with
  | nil => exact .refl es
  | cons e _ ih => exact ih (List.pairwise_cons.mp hseparate).2 _
  | swap e f values =>
    have hapart := (List.pairwise_cons.mp hseparate).1 e List.mem_cons_self
    exact applyAll_reordered (setAt_comm es hapart)
  | trans h₁ _ ih₁ ih₂ =>
    have hmiddle : Separate _ := (h₁.pairwise_iff fun hef => hef.symm).mp hseparate
    exact (ih₁ hseparate es).trans (ih₂ hmiddle es)

end

theorem overrides_separate : overrides.Pairwise fun o p => Apart o.steps p.steps := by
  decide +kernel

theorem mem_present {env : Environment} {o : Override} {v : Value} :
    (o, v) ∈ present env ↔
      o ∈ overrides ∧ ∃ raw, env.lookup o.varName = some raw ∧ coerce raw = v := by
  simp only [present, List.mem_filterMap, Option.map_eq_some_iff, Prod.mk.injEq]
  constructor
  · rintro ⟨o', ho, raw, hraw, rfl, rfl⟩
    exact ⟨ho, raw, hraw, rfl⟩
  · rintro ⟨ho, raw, hraw, rfl⟩
    exact ⟨o, ho, raw, hraw, rfl, rfl⟩

theorem present_separate (env : Environment) : Separate (present env) := by
  refine List.Pairwise.filterMap _ (fun o p hapart e he f hf => ?_) overrides_separate
  obtain ⟨_, -, rfl⟩ := Option.map_eq_some_iff.mp he
  obtain ⟨_, -, rfl⟩ := Option.map_eq_some_iff.mp hf
  exact hapart

/-- A text that stands for a number that is not finite stays a text. -/
theorem coerce_finite {raw : String} {x : Float} (h : coerce raw = .float x) :
    Double.isFinite x = true := by
  unfold coerce at h
  split at h
  · cases h
  · cases h
  · split at h
    · split at h
      · next hfinite =>
        obtain rfl := Value.float.inj h
        exact hfinite
      · cases h
    · cases h

/-- The entries that variables write to. -/
def base? : Value → Option Entries
  | .map es => some (if es.isEmpty then defaultEntries else es)
  | v => if v.isTruthy then none else some defaultEntries

/-- A variable of the table is set. -/
def IsSet (env : Environment) : Prop := ∃ o ∈ overrides, (env.lookup o.varName).isSome = true

theorem present_eq_nil {env : Environment} : present env = [] ↔ ¬ IsSet env := by
  simp only [present, List.filterMap_eq_nil_iff, Option.map_eq_none_iff, IsSet, not_exists, not_and,
    Option.not_isSome_iff_eq_none]

theorem overlay_of_isSet {env : Environment} (hset : IsSet env) (file : Value) :
    overlay file env =
      match base? file with
      | some base => .ok (some (applyAll base (present env)))
      | none => .error (.noMember file.kindName "get") := by
  have hpresent : present env ≠ [] := fun h => present_eq_nil.mp h hset
  obtain ⟨e, values, hvalues⟩ := List.exists_cons_of_ne_nil hpresent
  unfold overlay
  cases file with
  | map es => simp [hvalues, base?]
  | _ => simp only [hvalues, base?]; split <;> rfl

theorem overlay_of_base {env : Environment} (hset : IsSet env) {file : Value} {base : Entries}
    (hbase : base? file = some base) :
    overlay file env = .ok (some (applyAll base (present env))) := by
  rw [overlay_of_isSet hset, hbase]

/-- The values of an environment that were written are found as they are. -/
theorem applyAll_present_again (env : Environment) (base : Entries) :
    applyAll (applyAll base (present env)) (present env) = applyAll base (present env) :=
  applyAll_of_lookup fun _ he => lookup_applyAll base (present_separate env) he

/-- What the variables that are set make of a document. -/
structure Overlays (env : Environment) (base merged : Entries) : Prop where
  holds : ∀ o ∈ overrides, ∀ raw, env.lookup o.varName = some raw →
    (Value.map merged).lookup o.keys = some (coerce raw)
  finite : ∀ o ∈ overrides, ∀ x, (env.lookup o.varName).isSome = true →
    (Value.map merged).lookup o.keys = some (.float x) → Double.isFinite x = true
  frame : ∀ keys, (∀ o ∈ overrides, (env.lookup o.varName).isSome = true → Apart keys o.keys) →
    (Value.map merged).lookup keys = (Value.map base).lookup keys
  anyOrder : ∀ values, values.Perm (present env) → Reordered (applyAll base values) merged
  again : overlay (.map merged) env = .ok (some merged)

theorem overlays_applyAll {env : Environment} (hset : IsSet env) (base : Entries) :
    Overlays env base (applyAll base (present env)) := by
  set merged := applyAll base (present env)
  have hholds : ∀ o ∈ overrides, ∀ raw, env.lookup o.varName = some raw →
      (Value.map merged).lookup o.keys = some (coerce raw) := fun o ho raw hraw =>
    lookup_applyAll base (present_separate env) (mem_present.mpr ⟨ho, raw, hraw, rfl⟩)
  refine ⟨hholds, ?finite, ?frame, ?anyOrder, ?again⟩
  case finite =>
    intro o ho x hisSome hx
    obtain ⟨raw, hraw⟩ := Option.isSome_iff_exists.mp hisSome
    exact coerce_finite (Option.some.inj ((hholds o ho raw hraw).symm.trans hx))
  case frame =>
    intro keys hapart
    have heach : ∀ e ∈ present env, Apart keys e.1.keys := by
      rintro ⟨o, v⟩ he
      obtain ⟨ho, raw, hraw, -⟩ := mem_present.mp he
      exact hapart o ho (by simp only [hraw, Option.isSome_some])
    exact lookup_applyAll_of_apart base heach
  case anyOrder =>
    intro values hperm
    exact (applyAll_perm hperm.symm (present_separate env) base).symm
  case again =>
    have hagain : applyAll merged (present env) = merged := applyAll_present_again env base
    have hnonempty : merged ≠ [] := by
      intro hempty
      obtain ⟨o, ho, hisSome⟩ := hset
      obtain ⟨raw, hraw⟩ := Option.isSome_iff_exists.mp hisSome
      have hlookup := hholds o ho raw hraw
      rw [hempty, Value.lookup_nil (by simp [Override.keys, Override.steps])] at hlookup
      cases hlookup
    have hbase : base? (.map merged) = some merged := by simp [base?, hnonempty]
    simp only [overlay_of_isSet hset, hbase, hagain]

end Config
end DecisionGate
