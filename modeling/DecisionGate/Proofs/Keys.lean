import DecisionGate.Proofs.Choice
import DecisionGate.Proofs.Unreadable

/-!
# Keys that stand once

No configuration that is in use has a mapping that names a key twice: a reader of documents gives
none, a variable takes the place of what it is written over, and the defaults name each parameter
once. So a value that is found under a name is the only one there, and where one mapping is put into
another, it is the one that counts.
-/
namespace DecisionGate

namespace Entries

theorem distinct_ofNames {pairs : List (String × Value)} (h : (pairs.map Prod.fst).Nodup) :
    Distinct (ofNames pairs) := by
  simp only [Distinct, ofNames, List.pairwise_map, Key.sameAs_str]
  refine (List.pairwise_map.mp h).imp fun hne => ?_
  simpa using hne

variable {k : Key} {v : Value} {es : Entries} {e : Key × Value}

theorem get?_put_of_ne {name : String} (h : k ≠ .str name) (v : Value) (es : Entries) :
    (es.put k v).get? name = es.get? name := by
  have hother : ∀ j : Key, j ≠ .str name → j.sameAs (.str name) = false := fun j hj =>
    Bool.eq_false_iff.mpr fun hsame => hj (Config.eq_str_of_sameAs hsame)
  refine find?_put_of_apart (hother k h) (fun j hj => hother j ?_) v es
  rintro rfl
  cases k with
  | str s =>
    obtain rfl : name = s := by simpa [Key.sameAs] using hj
    exact h rfl
  | _ => cases hj

theorem get?_eq_none_of_distinct {name : String} (h : Distinct ((.str name, v) :: es)) :
    es.get? name = none := by
  cases hfound : es.get? name with
  | none => rfl
  | some w =>
    have hsame := (distinct_cons.mp h).1 _ (Config.mem_of_get? hfound)
    simp [Key.sameAs] at hsame

/-- Of a name in both mappings the value in the one that is put into the other counts. -/
theorem get?_update {more : Entries} (h : more.Distinct) (es : Entries) (name : String) :
    (es.update more).get? name = (more.get? name).or (es.get? name) := by
  induction more generalizing es with
  | nil => rfl
  | cons e rest ih =>
    obtain ⟨k, v⟩ := e
    have hput : (es.update ((k, v) :: rest)).get? name =
        (get? rest name).or ((es.put k v).get? name) := ih (distinct_cons.mp h).2 (es.put k v)
    rw [hput]
    by_cases hk : k = .str name
    · subst hk
      rw [get?_eq_none_of_distinct h, Option.none_or, ← set, get?_set_self]
      simp [get?, find?, Key.sameAs]
    · have hother : k.sameAs (.str name) = false :=
        Bool.eq_false_iff.mpr fun hsame => hk (Config.eq_str_of_sameAs hsame)
      rw [get?_put_of_ne hk]
      simp [get?, find?, hother]

theorem ofList_ofNames_concat (pairs : List (String × Value)) (name : String) (v : Value) :
    ofList (ofNames (pairs ++ [(name, v)])) = (ofList (ofNames pairs)).set name v := by
  simp [ofList, update, ofNames, set, List.foldl_append]

theorem get?_update_of_notMem {name : String} {pairs : List (String × Value)}
    (h : ∀ p ∈ pairs, p.1 ≠ name) (es : Entries) :
    (es.update (ofNames pairs)).get? name = es.get? name := by
  induction pairs generalizing es with
  | nil => rfl
  | cons p rest ih =>
    have hne : Key.str p.1 ≠ .str name := by simpa using h p List.mem_cons_self
    have hrest := ih (fun q hq => h q (List.mem_cons_of_mem p hq)) (es.put (.str p.1) p.2)
    exact hrest.trans (get?_put_of_ne hne p.2 es)

/-- What is written last under a name stays. -/
theorem get?_ofList_ofNames {name : String} {before after : List (String × Value)}
    (h : ∀ p ∈ after, p.1 ≠ name) :
    (ofList (ofNames (before ++ (name, v) :: after))).get? name = some v := by
  have hsplit : ofList (ofNames (before ++ (name, v) :: after)) =
      ((ofList (ofNames before)).set name v).update (ofNames after) := by
    simp [ofList, update, ofNames, set, List.foldl_append]
  rw [hsplit, get?_update_of_notMem h, get?_set_self]

/-- A name that is there keeps its place. -/
theorem map_fst_set_of_mem {name : String} (h : .str name ∈ es.map Prod.fst) (v : Value) :
    (es.set name v).map Prod.fst = es.map Prod.fst := by
  induction es with
  | nil => cases h
  | cons e rest ih =>
    obtain ⟨k, w⟩ := e
    rw [set, put]
    split
    · rfl
    · next hother =>
      rcases List.mem_cons.mp h with hname | hrest
      · obtain rfl : Key.str name = k := hname
        exact absurd (by simp [Key.sameAs]) hother
      · exact congrArg (k :: ·) (ih hrest)

/-- A new one is written at the end. -/
theorem set_of_notMem {name : String} (h : .str name ∉ es.map Prod.fst) (v : Value) :
    es.set name v = es ++ [(.str name, v)] := by
  induction es with
  | nil => rfl
  | cons e rest ih =>
    obtain ⟨k, w⟩ := e
    obtain ⟨hk, hrest⟩ := not_or.mp (mt List.mem_cons.mpr h)
    rw [set, put, if_neg fun hsame => hk (Config.eq_str_of_sameAs hsame).symm]
    exact congrArg ((k, w) :: ·) (ih hrest)

/-- Names stand in the order in which they are first written. -/
theorem map_fst_ofList_ofNames (pairs : List (String × Value)) :
    (ofList (ofNames pairs)).map Prod.fst = (pairs.map Prod.fst).eraseDups.map .str := by
  induction pairs using List.reverseRecOn with
  | nil => rfl
  | append_singleton pairs p ih =>
    rw [ofList_ofNames_concat, List.map_append, List.map_singleton, List.eraseDups_append]
    by_cases hmem : p.1 ∈ pairs.map Prod.fst
    · have hkey : Key.str p.1 ∈ (ofList (ofNames pairs)).map Prod.fst := by
        rw [ih]
        exact List.mem_map_of_mem (List.mem_eraseDups.mpr hmem)
      have hnone : [p.1].removeAll (pairs.map Prod.fst) = [] := by
        simp only [List.removeAll, List.filter_singleton, List.elem_eq_mem, hmem]
        rfl
      rw [map_fst_set_of_mem hkey, ih, hnone, List.eraseDups_nil, List.append_nil]
    · have hkey : Key.str p.1 ∉ (ofList (ofNames pairs)).map Prod.fst := by
        rw [ih]
        simpa using hmem
      have hself : [p.1].removeAll (pairs.map Prod.fst) = [p.1] := by
        simp only [List.removeAll, List.filter_singleton, List.elem_eq_mem, hmem]
        rfl
      rw [set_of_notMem hkey, List.map_append, ih, hself, List.map_append]
      rfl

theorem exists_of_mem_ofList_ofNames {pairs : List (String × Value)}
    (h : e ∈ ofList (ofNames pairs)) : ∃ p ∈ pairs, p.2 = e.2 := by
  induction pairs using List.reverseRecOn with
  | nil => cases h
  | append_singleton pairs p ih =>
    rw [ofList_ofNames_concat] at h
    rcases value_of_mem_put h with hnew | hold
    · exact ⟨p, by simp, hnew.symm⟩
    · obtain ⟨q, hq, hvalue⟩ := ih hold
      exact ⟨q, List.mem_append_left _ hq, hvalue⟩

/-- Names that differ are written one after the other. -/
theorem ofList_ofNames_of_nodup {pairs : List (String × Value)} (h : (pairs.map Prod.fst).Nodup) :
    ofList (ofNames pairs) = ofNames pairs := by
  induction pairs using List.reverseRecOn with
  | nil => rfl
  | append_singleton pairs p ih =>
    rw [List.map_append, List.nodup_append] at h
    obtain ⟨hpairs, -, hnew⟩ := h
    have hkey : Key.str p.1 ∉ (ofNames pairs).map Prod.fst := by
      simp only [ofNames, List.map_map, List.mem_map, Function.comp_apply, Key.str.injEq,
        not_exists, not_and]
      exact fun q hq heq => hnew q.1 (List.mem_map_of_mem hq) p.1 (by simp) heq
    rw [ofList_ofNames_concat, ih hpairs, set_of_notMem hkey]
    simp [ofNames]

end Entries

namespace Value

variable {v : Value} {es : Entries}

theorem Keyed.get? (h : (Value.map es).Keyed) {name : String} (hv : es.get? name = some v) :
    v.Keyed :=
  h.values _ (Config.mem_of_get? hv)

theorem keyed_ofNames {pairs : List (String × Value)} (h : (pairs.map Prod.fst).Nodup)
    (hvalues : ∀ p ∈ pairs, p.2.Keyed) : (Value.ofNames pairs).Keyed := by
  refine .map (Entries.distinct_ofNames h) fun e he => ?_
  obtain ⟨p, hp, rfl⟩ := List.mem_map.mp he
  exact hvalues p hp

end Value

namespace Config

variable {es : Entries} {env : Environment}

theorem HoldsMapping.keyed {o : Origin} {tree : Files.Tree} (h : HoldsMapping o tree es) :
    (Value.map es).Keyed := by
  obtain ⟨octets, -, hread⟩ := h
  exact o.reader.keyed hread

theorem keyed_defaultSection (b : Builtin) : (defaultSection b).Keyed := by
  have hgroup : ∀ g, (Value.ofNames (defaultGroup b g)).Keyed := by
    intro g
    refine Value.keyed_ofNames (by cases b <;> cases g <;> decide) fun p hp => ?_
    cases b <;> cases g <;> simp only [defaultGroup, defaultWeights, defaultThresholds] at hp <;>
      fin_cases hp <;> constructor
  refine Value.keyed_ofNames (by simp) fun p hp => ?_
  fin_cases hp
  · exact hgroup .weights
  · exact hgroup .thresholds

theorem keyed_defaultEntries : (Value.map defaultEntries).Keyed := by
  refine Value.keyed_ofNames (by decide) fun p hp => ?_
  fin_cases hp
  · exact .str _
  · refine Value.keyed_ofNames (by decide) fun q hq => ?_
    obtain ⟨b, -, rfl⟩ := List.mem_map.mp hq
    exact keyed_defaultSection b
  · refine Value.keyed_ofNames (by decide) fun q hq => ?_
    fin_cases hq <;> constructor

theorem keyed_coerce (raw : String) : (coerce raw).Keyed := by
  unfold coerce
  split
  · exact .bool true
  · exact .bool false
  · split
    · split
      · exact .float _
      · exact .str raw
    · exact .str raw

theorem keyed_setAt (h : (Value.map es).Keyed) (path : List String) (name : String) {v : Value}
    (hv : v.Keyed) : (Value.map (setAt es path name v)).Keyed := by
  induction path generalizing es with
  | nil => exact h.put _ hv
  | cons step rest ih =>
    unfold setAt
    refine h.put _ (ih ?_)
    split
    · next hchild => exact h.get? hchild
    · exact Value.keyed_nil

theorem keyed_applyAll (h : (Value.map es).Keyed) (values : List (Override × Value))
    (hvalues : ∀ p ∈ values, p.2.Keyed) : (Value.map (applyAll es values)).Keyed := by
  induction values generalizing es with
  | nil => exact h
  | cons p rest ih =>
    have hset := keyed_setAt h p.1.path p.1.name (hvalues p List.mem_cons_self)
    exact ih hset fun q hq => hvalues q (List.mem_cons_of_mem p hq)

theorem keyed_present {p : Override × Value} (h : p ∈ present env) : p.2.Keyed := by
  obtain ⟨o, -, ho⟩ := List.mem_filterMap.mp h
  obtain ⟨raw, -, rfl⟩ := Option.map_eq_some_iff.mp ho
  exact keyed_coerce raw

theorem keyed_overlaid (h : (Value.map es).Keyed) (env : Environment) :
    (Value.map (overlaid es env)).Keyed := by
  have hvalues : ∀ p ∈ present env, p.2.Keyed := fun p hp => keyed_present hp
  unfold overlaid
  split
  · exact h
  · refine keyed_applyAll ?_ _ hvalues
    split
    · exact keyed_defaultEntries
    · exact h

theorem keyed_base {file : Value} (h : file.Keyed) (hbase : base? file = some es) :
    (Value.map es).Keyed := by
  unfold base? at hbase
  split at hbase
  · obtain rfl := Option.some.inj hbase
    split
    · exact keyed_defaultEntries
    · exact h
  · split at hbase
    · cases hbase
    · obtain rfl := Option.some.inj hbase
      exact keyed_defaultEntries

/-- A configuration that is chosen for a document passes the checks and has each key once. -/
theorem accepted_of_resolve {file : Value} (h : file.Keyed) {source : Source}
    (hresolve : (resolve file env).value = .ok (es, source)) :
    (Value.map es).Keyed ∧ check (.map es) = .ok [] := by
  have houtcome := outcome_of_resolve hresolve
  generalize resolve file env = r at hresolve houtcome
  cases houtcome with
  | nothing =>
    cases hresolve
    exact ⟨keyed_defaultEntries, check_default⟩
  | replaced =>
    cases hresolve
    exact ⟨keyed_defaultEntries, check_default⟩
  | taken hcandidate hcheck =>
    cases hresolve
    refine ⟨?_, hcheck⟩
    cases hcandidate with
    | document => exact h
    | overlaid hset hbase hmerged _ =>
      cases hmerged.symm.trans (overlay_of_base hset hbase)
      exact keyed_applyAll (keyed_base h hbase) _ fun p hp => keyed_present hp

end Config

end DecisionGate
