import DecisionGate.Value.Basic

/-!
Values in which no mapping names a key twice. The entries of a mapping are a list, which could; what
is put together entry by entry does not.
-/
namespace DecisionGate

namespace Entries

/-- No two entries have one key. -/
def Distinct (es : Entries) : Prop := es.Pairwise fun e f => e.1.sameAs f.1 = false

theorem distinct_nil : Distinct [] := List.Pairwise.nil

theorem distinct_cons {e : Key × Value} {rest : Entries} :
    Distinct (e :: rest) ↔ (∀ f ∈ rest, e.1.sameAs f.1 = false) ∧ Distinct rest :=
  List.pairwise_cons

variable {k : Key} {v : Value} {es : Entries} {e : Key × Value}

/-- Putting an entry brings no key but its own. -/
theorem key_of_mem_put (h : e ∈ es.put k v) : e.1 = k ∨ ∃ f ∈ es, f.1 = e.1 := by
  induction es with
  | nil =>
    obtain rfl := List.mem_singleton.mp h
    exact .inl rfl
  | cons f rest ih =>
    simp only [put] at h
    split at h
    · rcases List.mem_cons.mp h with hfirst | hrest
      · exact .inr ⟨f, List.mem_cons_self, (congrArg Prod.fst hfirst).symm⟩
      · exact .inr ⟨e, List.mem_cons_of_mem f hrest, rfl⟩
    · rcases List.mem_cons.mp h with rfl | hrest
      · exact .inr ⟨_, List.mem_cons_self, rfl⟩
      · refine (ih hrest).imp_right fun hold => ?_
        obtain ⟨g, hg, hkey⟩ := hold
        exact ⟨g, List.mem_cons_of_mem f hg, hkey⟩

/-- Nor a value but its own. -/
theorem value_of_mem_put (h : e ∈ es.put k v) : e.2 = v ∨ e ∈ es := by
  induction es with
  | nil =>
    obtain rfl := List.mem_singleton.mp h
    exact .inl rfl
  | cons f rest ih =>
    simp only [put] at h
    split at h
    · rcases List.mem_cons.mp h with rfl | hrest
      · exact .inl rfl
      · exact .inr (List.mem_cons_of_mem f hrest)
    · rcases List.mem_cons.mp h with rfl | hrest
      · exact .inr List.mem_cons_self
      · exact (ih hrest).imp_right (List.mem_cons_of_mem f)

theorem distinct_put (h : es.Distinct) (k : Key) (v : Value) : (es.put k v).Distinct := by
  induction es with
  | nil => exact List.pairwise_singleton ..
  | cons f rest ih =>
    obtain ⟨hfirst, hrest⟩ := distinct_cons.mp h
    simp only [put]
    split
    · exact distinct_cons.mpr ⟨hfirst, hrest⟩
    · next hnew =>
      refine distinct_cons.mpr ⟨fun e he => ?_, ih hrest⟩
      rcases key_of_mem_put he with hkey | ⟨g, hg, hkey⟩
      · rw [hkey]
        exact Bool.eq_false_iff.mpr hnew
      · rw [← hkey]
        exact hfirst g hg

end Entries

/-- No mapping in a value has a key twice. -/
inductive Value.Keyed : Value → Prop
  | null : Keyed .null
  | bool (b : Bool) : Keyed (.bool b)
  | int (i : Int) : Keyed (.int i)
  | float (x : Float) : Keyed (.float x)
  | str (s : String) : Keyed (.str s)
  | list {xs : List Value} : (∀ x ∈ xs, Keyed x) → Keyed (.list xs)
  | map {es : Entries} : es.Distinct → (∀ e ∈ es, Keyed e.2) → Keyed (.map es)
  | endless (apart : Bool) : Keyed (.endless apart)

namespace Value

variable {v : Value} {es : Entries}

theorem Keyed.distinct (h : (Value.map es).Keyed) : es.Distinct := by
  cases h with
  | map hdistinct _ => exact hdistinct

theorem Keyed.values (h : (Value.map es).Keyed) : ∀ e ∈ es, e.2.Keyed := by
  cases h with
  | map _ hvalues => exact hvalues

theorem keyed_nil : (Value.map []).Keyed := .map Entries.distinct_nil nofun

theorem keyed_toValue (k : Key) : k.toValue.Keyed := by
  cases k with
  | null => exact .null
  | bool b => exact .bool b
  | int i => exact .int i
  | float x => exact .float x
  | str s => exact .str s

theorem Keyed.put (h : (Value.map es).Keyed) (k : Key) (hv : v.Keyed) :
    (Value.map (es.put k v)).Keyed := by
  refine .map (Entries.distinct_put h.distinct k v) fun e he => ?_
  rcases Entries.value_of_mem_put he with hnew | hold
  · exact hnew ▸ hv
  · exact h.values e hold

theorem Keyed.update (h : (Value.map es).Keyed) {more : Entries} (hmore : ∀ e ∈ more, e.2.Keyed) :
    (Value.map (es.update more)).Keyed := by
  induction more generalizing es with
  | nil => exact h
  | cons e rest ih =>
    have hput := h.put e.1 (hmore e List.mem_cons_self)
    exact ih hput fun f hf => hmore f (List.mem_cons_of_mem e hf)

theorem keyed_ofList {pairs : List (Key × Value)} (h : ∀ e ∈ pairs, e.2.Keyed) :
    (Value.map (Entries.ofList pairs)).Keyed :=
  keyed_nil.update h

end Value

end DecisionGate
