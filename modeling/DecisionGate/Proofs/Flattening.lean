import DecisionGate.Gate.Flatten
import DecisionGate.Proofs.Keys
import DecisionGate.Proofs.Naming

/-!
# Flat tables and the paths of a mapping

The flat table of a nested mapping has an entry for every path in it, written in the order in which
the paths are met, so of several paths that come down to one name the last one counts. The name of a
path is put together from the names of its keys. As long as each key has one, it is also the name of
the phrase that the keys make with any gap between them, which is how a criterion speaks of it.
-/
namespace DecisionGate

namespace Gate

open Criteria

mutual

/-- The paths of a mapping that lies below others, with what stands at each, in the order in which
they are met: a path comes before those that it begins. -/
def pathsBelow (above : List String) : List (Key × Value) → List (List String × Value)
  | [] => []
  | (k, v) :: rest =>
    (above ++ [k.text], v) :: (pathsInside (above ++ [k.text]) v ++ pathsBelow above rest)

def pathsInside (above : List String) : Value → List (List String × Value)
  | .map es => pathsBelow above es
  | _ => []

end

def paths (es : Entries) : List (List String × Value) := pathsBelow [] es

/-- The name of a path in the flat table. -/
def pathName (path : List String) : String :=
  path.foldl (fun above key => joinName above (toSnake key)) ""

theorem pathName_concat (path : List String) (key : String) :
    pathName (path ++ [key]) = joinName (pathName path) (toSnake key) := by
  rw [pathName, List.foldl_append]
  rfl

mutual

theorem namesBelow_eq (above : List String) (es : List (Key × Value)) :
    namesBelow (pathName above) es =
      (pathsBelow above es).map fun p => (pathName p.1, p.2) := by
  match es with
  | [] => rfl
  | (k, v) :: rest =>
    have hmembers := membersBelow_eq (above ++ [k.text]) v
    have hrest := namesBelow_eq above rest
    simp only [namesBelow, pathsBelow, List.map_cons, List.map_append, ← pathName_concat,
      hmembers, hrest]

theorem membersBelow_eq (above : List String) (v : Value) :
    membersBelow (pathName above) v =
      (pathsInside above v).map fun p => (pathName p.1, p.2) := by
  match v with
  | .map es =>
    rw [membersBelow, pathsInside]
    exact namesBelow_eq above es
  | .null | .bool _ | .int _ | .float _ | .str _ | .list _ | .endless _ => rfl

end

/-- The flat table holds what stands at each path under its name, the last path winning. -/
theorem flatten_eq (es : Entries) : flatten es =
    Entries.ofList (Entries.ofNames ((paths es).map fun p => (pathName p.1, p.2))) := by
  rw [paths, ← namesBelow_eq [] es]
  rfl

theorem foldl_joinName {above : String} (h : above ≠ "") (names : List String) :
    names.foldl joinName above = "_".intercalate (above :: names) := by
  induction names generalizing above with
  | nil => exact String.intercalate_singleton.symm
  | cons name rest ih =>
    have hjoin : joinName above name = above ++ "_" ++ name := by
      simp [joinName, h]
    have hne : above ++ "_" ++ name ≠ "" := by simp [h]
    rw [List.foldl_cons, hjoin, ih hne, String.intercalate_cons_cons,
      String.intercalate_cons_append]

theorem pathName_eq {path : List String} (h : ∀ key ∈ path, toSnake key ≠ "") :
    pathName path = "_".intercalate (path.map toSnake) := by
  have hfold : pathName path = (path.map toSnake).foldl joinName "" := by
    rw [pathName, List.foldl_map]
  rw [hfold]
  cases path with
  | nil => rfl
  | cons key rest =>
    have hfirst : joinName "" (toSnake key) = toSnake key := rfl
    rw [List.map_cons, List.foldl_cons, hfirst, foldl_joinName (h key List.mem_cons_self)]

/-- A nested mapping whose keys are all texts and that comes to an end. -/
inductive Nested : Value → Prop
  | map {es : Entries} : (∀ e ∈ es, ∃ s, e.1 = .str s) → (∀ e ∈ es, Nested e.2) → Nested (.map es)
  | other {v : Value} : v.entries? = none → (∀ apart, v ≠ .endless apart) → Nested v

theorem flatFault?_eq_none {es : List (Key × Value)} (hkeys : ∀ e ∈ es, ∃ s, e.1 = .str s)
    (hmembers : ∀ e ∈ es, memberFault? e.2 = none) : flatFault? es = none := by
  induction es with
  | nil => rfl
  | cons e rest ih =>
    obtain ⟨k, v⟩ := e
    obtain ⟨s, rfl⟩ := hkeys _ List.mem_cons_self
    have hv := hmembers _ List.mem_cons_self
    have hrest := ih (fun f hf => hkeys f (List.mem_cons_of_mem _ hf))
      fun f hf => hmembers f (List.mem_cons_of_mem _ hf)
    simp only [flatFault?, Key.hasText, if_true, hv, hrest, Option.or_none]

theorem memberFault?_eq_none {v : Value} (h : Nested v) : memberFault? v = none := by
  induction h with
  | map hkeys _ ih =>
    rw [memberFault?]
    exact flatFault?_eq_none hkeys ih
  | @other v hmap hendless =>
    cases v with
    | map es => cases hmap
    | endless apart => exact absurd rfl (hendless apart)
    | _ => rfl

theorem Nested.keys {es : Entries} (h : Nested (.map es)) : ∀ e ∈ es, ∃ s, e.1 = .str s := by
  cases h with
  | map hkeys _ => exact hkeys
  | other hmap _ => cases hmap

theorem Nested.members {es : Entries} (h : Nested (.map es)) : ∀ e ∈ es, Nested e.2 := by
  cases h with
  | map _ hmembers => exact hmembers
  | other hmap _ => cases hmap

/-- The last of some paths with a name. -/
structure IsLast (ps : List (List String × Value)) (name : String) (path : List String)
    (v : Value) : Prop where
  split : ∃ before after, ps = before ++ (path, v) :: after ∧ ∀ p ∈ after, pathName p.1 ≠ name
  named : pathName path = name

theorem exists_isLast {ps : List (List String × Value)} {name : String}
    (h : ∃ p ∈ ps, pathName p.1 = name) : ∃ path v, IsLast ps name path v := by
  induction ps with
  | nil =>
    obtain ⟨p, hp, -⟩ := h
    cases hp
  | cons first rest ih =>
    by_cases hrest : ∃ p ∈ rest, pathName p.1 = name
    · obtain ⟨path, v, ⟨before, after, rfl, hafter⟩, hnamed⟩ := ih hrest
      exact ⟨path, v, ⟨first :: before, after, rfl, hafter⟩, hnamed⟩
    · obtain ⟨p, hp, hnamed⟩ := h
      have hlast : ∀ q ∈ rest, pathName q.1 ≠ name := fun q hq hname => hrest ⟨q, hq, hname⟩
      obtain rfl : p = first := (List.mem_cons.mp hp).resolve_right fun hp => hlast p hp hnamed
      exact ⟨p.1, p.2, ⟨[], rest, rfl, hlast⟩, hnamed⟩

theorem IsLast.get?_flatten {es : Entries} {name : String} {path : List String} {v : Value}
    (h : IsLast (paths es) name path v) : (flatten es).get? name = some v := by
  obtain ⟨⟨before, after, hsplit, hafter⟩, rfl⟩ := h
  rw [flatten_eq, hsplit, List.map_append, List.map_cons]
  refine Entries.get?_ofList_ofNames fun q hq => ?_
  obtain ⟨p, hp, rfl⟩ := List.mem_map.mp hq
  exact hafter p hp

/-- Names in snake case are small letters and digits with single underscores in between, and to
name a name again changes nothing. A nested mapping with texts as keys has a flat table, and there
every path whose keys all have a name is found under the name of the phrase that its keys make,
which is also that of the keys joined by underscores; what is found is what stands at the last path
with that name. -/
theorem names_meet (es : Entries) (h : Nested (.map es)) :
    (∀ name, toSnake (toSnake name) = toSnake name ∧ IsSnake (toSnake name).toList) ∧
      flatFault? es = none ∧
      ∀ p ∈ paths es, (∀ key ∈ p.1, toSnake key ≠ "") →
        toSnake (" ".intercalate p.1) = toSnake ("_".intercalate p.1) ∧
        toSnake (" ".intercalate p.1) = pathName p.1 ∧
        ∃ path v, IsLast (paths es) (toSnake (" ".intercalate p.1)) path v ∧
          (flatten es).get? (toSnake (" ".intercalate p.1)) = some v := by
  refine ⟨fun name => ⟨toSnake_toSnake name, isSnake_toSnake name⟩,
    flatFault?_eq_none h.keys fun e he => memberFault?_eq_none (h.members e he), ?_⟩
  intro p hp hkeys
  have hspaced := toSnake_phrase isGap_space hkeys
  have hjoined := toSnake_phrase isGap_underscore hkeys
  have hnamed : toSnake (" ".intercalate p.1) = pathName p.1 :=
    hspaced.trans (pathName_eq hkeys).symm
  obtain ⟨path, v, hlast⟩ := exists_isLast ⟨p, hp, hnamed.symm⟩
  exact ⟨hspaced.trans hjoined.symm, hnamed, path, v, hlast, hlast.get?_flatten⟩

/-- Two members of one mapping whose keys have one name. -/
def clarities : Entries :=
  Entries.ofNames
    [("endStateVision", Value.ofNames [("clarity", .int 1), ("Clarity ", .int 2)])]

theorem nested_ofNames {pairs : List (String × Value)} (h : ∀ p ∈ pairs, Nested p.2) :
    Nested (Value.ofNames pairs) := by
  refine .map (fun e he => ?_) fun e he => ?_ <;> obtain ⟨p, hp, rfl⟩ := List.mem_map.mp he
  · exact ⟨p.1, rfl⟩
  · exact h p hp

theorem nested_clarities : Nested (.map clarities) := by
  refine nested_ofNames fun p hp => ?_
  obtain rfl := List.mem_singleton.mp hp
  refine nested_ofNames fun q hq => ?_
  fin_cases hq <;> exact .other rfl nofun

theorem names_meet_clarities :
    Nested (.map clarities) ∧ (["endStateVision", "clarity"], Value.int 1) ∈ paths clarities ∧
      ∃ path v, IsLast (paths clarities) (toSnake "endStateVision clarity") path v ∧
        (flatten clarities).get? (toSnake "endStateVision clarity") = some v := by
  have hmem : (["endStateVision", "clarity"], Value.int 1) ∈ paths clarities :=
    List.mem_cons_of_mem _ List.mem_cons_self
  obtain ⟨-, -, hpaths⟩ := names_meet clarities nested_clarities
  obtain ⟨-, -, hlast⟩ := hpaths _ hmem (by decide +kernel)
  exact ⟨nested_clarities, hmem, hlast⟩

example : (flatten clarities).get? (toSnake "endStateVision clarity") = some (.int 2) := by rfl

end Gate

end DecisionGate
