import Mathlib.Data.List.Induction
import DecisionGate.Proofs.Compilation

/-!
# The cache as a memo table

The compiler's cache is a memo table whose key is the id alone. What is compiled under an id is,
from the first time that this comes through until the cache is cleared, the one function that was
made then, with the section that was passed then. This module states that of every history of a new
compiler, in terms of what was asked of it. It also counts the hits and the misses of a history, and
says what failed attempts leave behind: one more miss, and nothing else.
-/
namespace DecisionGate.Compiler

variable {c : Compiler} {id id' : String} {config : Value} {f f' : DecisionFunction}

/-- The function that a template makes under an id and a section. -/
inductive Makes (c : Compiler) (id : String) (config : Value) : DecisionFunction → Prop
  | mk (t : Template) (b : Behaviour) : c.template? id = some t →
      t.compile (sectionValue config) = .ok b →
      Makes c id config (c.newFunction t (sectionValue config) b)

/-- The failure of an id that has no template, or whose template refuses the section. -/
inductive Refuses (c : Compiler) (id : String) (config : Value) : Failure → Prop
  | unknown : c.template? id = none → Refuses c id config (.unknownHeuristic id)
  | raised (t : Template) (e : Failure) : c.template? id = some t →
      t.compile (sectionValue config) = .error e → Refuses c id config e

/-- The compiler once it has made a function that it did not hold. -/
def holding (c : Compiler) (id : String) (f : DecisionFunction) : Compiler :=
  { c with
    misses := c.misses + 1
    compiled := c.compiled ++ [(id, f)]
    created := c.created + 1 }

theorem compile_cases (c : Compiler) (id : String) (config : Value) :
    (∃ f, c.cached? id = some f ∧
        (c.compile id config).value = (.ok f, { c with hits := c.hits + 1 })) ∨
      c.cached? id = none ∧
        ((∃ f, c.Makes id config f ∧ (c.compile id config).value = (.ok f, c.holding id f)) ∨
          ∃ e, c.Refuses id config e ∧
            (c.compile id config).value = (.error e, { c with misses := c.misses + 1 })) := by
  cases hcached : c.cached? id with
  | some f => exact .inl ⟨f, rfl, compile_of_cached hcached config⟩
  | none =>
    refine .inr ⟨rfl, ?_⟩
    have hsame : ({ c with misses := c.misses + 1 } : Compiler).template? id = c.template? id := rfl
    simp only [compile, hcached, Report.value_bind, hsame]
    cases ht : c.template? id with
    | none => exact .inr ⟨_, .unknown ht, rfl⟩
    | some t =>
      simp only [Report.value_bind]
      cases hb : t.compile (sectionValue config) with
      | error e => exact .inr ⟨e, .raised t e ht hb, rfl⟩
      | ok b => exact .inl ⟨_, .mk t b ht hb, rfl⟩

theorem Makes.unique (h : c.Makes id config f) (h' : c.Makes id config f') : f = f' := by
  obtain ⟨t, b, ht, hb⟩ := h
  obtain ⟨t', b', ht', hb'⟩ := h'
  obtain rfl := Option.some.inj (ht.symm.trans ht')
  obtain rfl := Except.ok.inj (hb.symm.trans hb')
  rfl

theorem Refuses.unique {e e' : Failure} (h : c.Refuses id config e)
    (h' : c.Refuses id config e') : e = e' := by
  cases h with
  | unknown hnone =>
    cases h' with
    | unknown _ => rfl
    | raised t _ ht _ => cases hnone.symm.trans ht
  | raised t _ ht he =>
    cases h' with
    | unknown hnone => cases hnone.symm.trans ht
    | raised t' _ ht' he' =>
      obtain rfl := Option.some.inj (ht.symm.trans ht')
      exact Except.error.inj (he.symm.trans he')

theorem Makes.not_refuses {e : Failure} (h : c.Makes id config f) : ¬ c.Refuses id config e := by
  obtain ⟨t, b, ht, hb⟩ := h
  intro hrefuses
  cases hrefuses with
  | unknown hnone => cases ht.symm.trans hnone
  | raised t' e ht' he =>
    obtain rfl := Option.some.inj (ht.symm.trans ht')
    cases hb.symm.trans he

theorem compile_of_makes (hcached : c.cached? id = none) (h : c.Makes id config f) :
    (c.compile id config).value = (.ok f, c.holding id f) := by
  rcases c.compile_cases id config with ⟨g, hg, -⟩ | ⟨-, ⟨g, hg, hvalue⟩ | ⟨e, he, -⟩⟩
  · cases hcached.symm.trans hg
  · rw [h.unique hg]
    exact hvalue
  · exact absurd he h.not_refuses

theorem Makes.config_eq (h : c.Makes id config f) : f.config = sectionValue config := by
  cases h
  rfl

theorem Makes.serial_eq (h : c.Makes id config f) : f.serial = c.created := by
  cases h
  rfl

/-- Under the id of a built-in heuristic its own template is compiled. -/
theorem Makes.builtin {b : Builtin} (h : c.Makes b.id config f) :
    ∃ es, sectionValue config = .map es ∧ f = builtinFunction c.created b es := by
  obtain ⟨t, behaviour, ht, hb⟩ := h
  obtain rfl := Option.some.inj ((template?_builtin c b).symm.trans ht)
  generalize sectionValue config = v at hb ⊢
  cases v with
  | map es =>
    obtain rfl := Except.ok.inj hb
    exact ⟨es, rfl, rfl⟩
  | _ => cases hb

/-- What is done to a compiler, one thing at a time. -/
inductive Act where
  | compile (id : String) (config : Value)
  | register (id : String) (p : Proposal)
  | clear

/-- What is called of a compiler. -/
inductive Call where
  | compile (id : String) (config : Value)
  | compileMultiple (items : List (String × Value))
  | register (id : String) (p : Proposal)
  | clear
  | invalidate (config : Value) (recompile : Bool)

def act (c : Compiler) : Act → Compiler
  | .compile id config => (c.compile id config).value.2
  | .register id p => (c.register id p).value.2
  | .clear => c.clear.value.2

def call (c : Compiler) : Call → Compiler
  | .compile id config => (c.compile id config).value.2
  | .compileMultiple items => (c.compileMultiple items).value.2
  | .register id p => (c.register id p).value.2
  | .clear => c.clear.value.2
  | .invalidate config recompile => (c.invalidate config recompile).value.2

/-- Separate attempts, in the order of a list. -/
def attempts (items : List (String × Value)) : List Act := items.map fun p => .compile p.1 p.2

/-- A call as separate acts. -/
def Call.acts : Call → List Act
  | .compile id config => [.compile id config]
  | .compileMultiple items => attempts items
  | .register id p => [.register id p]
  | .clear => [.clear]
  | .invalidate config recompile =>
    .clear :: if recompile && config.isTruthy then
      match builtinSections config with
      | .ok sections => attempts sections
      | .error _ => []
    else []

/-- A new compiler after some calls. -/
def ofCalls (calls : List Call) : Compiler := calls.foldl call {}

/-- A new compiler after some acts. -/
def ofActs (h : List Act) : Compiler := h.foldl act {}

def history (calls : List Call) : List Act := calls.flatMap Call.acts

variable {h : List Act}

@[simp] theorem ofActs_concat (h : List Act) (a : Act) : ofActs (h ++ [a]) = (ofActs h).act a :=
  List.foldl_concat ..

theorem ofActs_append (h more : List Act) : ofActs (h ++ more) = more.foldl act (ofActs h) :=
  List.foldl_append ..

theorem compileEach_cons (c : Compiler) (done : Compiled) (id : String) (config : Value)
    (rest : List (String × Value)) :
    (c.compileEach done ((id, config) :: rest)).value =
      ((c.compile id config).value.2.compileEach
        (putNamed id (c.compile id config).value.1.toOption done) rest).value := by
  simp only [compileEach, Report.value_bind]
  cases (c.compile id config).value.1 <;> rfl

theorem compileEach_acts (c : Compiler) (done : Compiled) (items : List (String × Value)) :
    (c.compileEach done items).value.2 = (attempts items).foldl act c := by
  induction items generalizing c done with
  | nil => rfl
  | cons item items ih =>
    obtain ⟨id, config⟩ := item
    rw [compileEach_cons, ih]
    rfl

theorem call_eq (c : Compiler) (k : Call) : c.call k = k.acts.foldl act c := by
  cases k with
  | compile id config => rfl
  | compileMultiple items => exact c.compileEach_acts [] items
  | register id p => rfl
  | clear => rfl
  | invalidate config recompile =>
    simp only [call, invalidate, Call.acts, clear, Report.value_bind, Report.value_pure,
      List.foldl_cons, act]
    cases recompile <;> cases config.isTruthy <;> try rfl
    cases builtinSections config with
    | error e => rfl
    | ok sections => exact compileEach_acts _ [] sections

theorem ofCalls_eq (calls : List Call) : ofCalls calls = ofActs (history calls) := by
  induction calls using List.reverseRecOn with
  | nil => rfl
  | append_singleton calls k ih =>
    have hstep : ofCalls (calls ++ [k]) = (ofCalls calls).call k := List.foldl_concat ..
    rw [hstep, call_eq, ih, history, history, List.flatMap_append, ofActs_append]
    simp

/-- After an attempt the cache holds what it gave, under the id that it was for. -/
theorem cached?_compile (c : Compiler) (id id' : String) (config : Value) :
    (c.compile id' config).value.2.cached? id =
      if id = id' then (c.compile id config).value.1.toOption else c.cached? id := by
  by_cases hid : id = id'
  · subst hid
    rw [if_pos rfl]
    rcases c.compile_cases id config with ⟨f, hf, hvalue⟩ | ⟨hnone, ⟨f, -, hvalue⟩ | ⟨e, -, hvalue⟩⟩
    · rw [hvalue]
      exact hf
    · rw [hvalue]
      have hlookup : c.compiled.lookup id = none := hnone
      simp [holding, cached?, lookup_append_singleton, hlookup, Except.toOption]
    · rw [hvalue]
      exact hnone
  · rw [if_neg hid]
    rcases c.compile_cases id' config with ⟨f, -, hvalue⟩ | ⟨-, ⟨f, -, hvalue⟩ | ⟨e, -, hvalue⟩⟩
    · rw [hvalue]
      rfl
    · rw [hvalue]
      simp [holding, cached?, lookup_append_singleton, hid]
    · rw [hvalue]
      rfl

theorem compiled_register (c : Compiler) (id : String) (p : Proposal) :
    (c.register id p).value.2.compiled = c.compiled := by
  unfold register
  split
  · rfl
  · cases proposed? id p <;> rfl

/-- What the cache holds it keeps until it is cleared. -/
theorem cached?_act {a : Act} (hf : c.cached? id = some f) (ha : a ≠ .clear) :
    (c.act a).cached? id = some f := by
  cases a with
  | compile id' config =>
    show (c.compile id' config).value.2.cached? id = some f
    rw [cached?_compile, compile_of_cached hf]
    split
    · rfl
    · exact hf
  | register id' p =>
    show (c.register id' p).value.2.compiled.lookup id = some f
    rw [compiled_register]
    exact hf
  | clear => exact absurd rfl ha

theorem cached?_acts {more : List Act} (hf : c.cached? id = some f) (hmore : .clear ∉ more) :
    (more.foldl act c).cached? id = some f := by
  induction more generalizing c with
  | nil => exact hf
  | cons a more ih =>
    obtain ⟨ha, hrest⟩ := not_or.mp (List.mem_cons.not.mp hmore)
    exact ih (cached?_act hf (Ne.symm ha)) hrest

/-- No attempt at an id came through since the cache was cleared last. -/
def Unmade (h : List Act) (id : String) : Prop :=
  ∀ before config since, h = before ++ .compile id config :: since → .clear ∉ since →
    ∀ f, ((ofActs before).compile id config).value.1 ≠ .ok f

/-- A place of a history with an attempt at an id, such that none came through before it since the
cache was cleared last, and the cache was not cleared after it. -/
structure First (h : List Act) (id : String) (before : List Act) (config : Value)
    (since : List Act) : Prop where
  split : h = before ++ .compile id config :: since
  kept : .clear ∉ since
  unmade : Unmade before id

/-- An attempt that came through is held until the cache is cleared. -/
theorem cached?_since {before since : List Act}
    (hf : ((ofActs before).compile id config).value.1 = .ok f) (hsince : .clear ∉ since) :
    (ofActs (before ++ .compile id config :: since)).cached? id = some f := by
  rw [ofActs_append, List.foldl_cons]
  refine cached?_acts ?_ hsince
  show ((ofActs before).compile id config).value.2.cached? id = some f
  rw [cached?_compile, if_pos rfl, hf]
  rfl

theorem unmade_of_not_cached (hnone : (ofActs h).cached? id = none) : Unmade h id := by
  intro before config since hsplit hsince f hf
  rw [hsplit, cached?_since hf hsince] at hnone
  cases hnone

theorem First.concat {before since : List Act} (hfirst : First h id before config since) {a : Act}
    (ha : a ≠ .clear) : First (h ++ [a]) id before config (since ++ [a]) where
  split := by rw [hfirst.split, List.append_assoc, List.cons_append]
  kept := by simpa using ⟨hfirst.kept, Ne.symm ha⟩
  unmade := hfirst.unmade

/-- What the cache holds was made at the first attempt that came through since it was cleared. -/
theorem exists_first (hf : (ofActs h).cached? id = some f) :
    ∃ before config since, First h id before config since ∧
      (ofActs before).cached? id = none ∧ (ofActs before).Makes id config f := by
  induction h using List.reverseRecOn with
  | nil => cases hf
  | append_singleton h a ih =>
    rw [ofActs_concat] at hf
    have hbefore (ha : a ≠ .clear) (hg : (ofActs h).cached? id = some f) :
        ∃ before config since, First (h ++ [a]) id before config since ∧
          (ofActs before).cached? id = none ∧ (ofActs before).Makes id config f := by
      obtain ⟨before, config, since, hfirst, hmade⟩ := ih hg
      exact ⟨before, config, since ++ [a], hfirst.concat ha, hmade⟩
    cases a with
    | clear => cases hf
    | register id' p =>
      refine hbefore nofun ?_
      have hlookup : ((ofActs h).register id' p).value.2.compiled.lookup id = some f := hf
      rwa [compiled_register] at hlookup
    | compile id' config =>
      have hcached : ((ofActs h).compile id' config).value.2.cached? id = some f := hf
      rw [cached?_compile] at hcached
      split at hcached
      · next hid =>
        subst hid
        rcases (ofActs h).compile_cases id config with
          ⟨g, hg, hvalue⟩ | ⟨hnone, ⟨g, hmakes, hvalue⟩ | ⟨e, -, hvalue⟩⟩
        · rw [hvalue] at hcached
          exact hbefore nofun (hg.trans hcached)
        · rw [hvalue] at hcached
          obtain rfl := Option.some.inj hcached
          refine ⟨h, config, [], ?_, hnone, hmakes⟩
          exact ⟨rfl, List.not_mem_nil, unmade_of_not_cached hnone⟩
        · rw [hvalue] at hcached
          cases hcached
      · exact hbefore nofun hcached

theorem unmade_iff : Unmade h id ↔ (ofActs h).cached? id = none := by
  refine ⟨fun hunmade => ?_, unmade_of_not_cached⟩
  cases hcached : (ofActs h).cached? id with
  | none => rfl
  | some f =>
    obtain ⟨before, config, since, hfirst, hnone, hmakes⟩ := exists_first hcached
    have hvalue := congrArg Prod.fst (compile_of_makes hnone hmakes)
    exact absurd hvalue (hunmade before config since hfirst.split hfirst.kept f)

/-- An attempt gives the function that was made at the first attempt that came through since the
cache was cleared last; that can be the attempt itself. -/
theorem compile_ok_iff (h : List Act) (id : String) (config : Value) (f : DecisionFunction) :
    ((ofActs h).compile id config).value.1 = .ok f ↔
      ∃ before config' since, First (h ++ [.compile id config]) id before config' since ∧
        (ofActs before).Makes id config' f := by
  constructor
  · intro hf
    rcases (ofActs h).compile_cases id config with
      ⟨g, hg, hvalue⟩ | ⟨hnone, ⟨g, hmakes, hvalue⟩ | ⟨e, -, hvalue⟩⟩
    · rw [hvalue] at hf
      obtain rfl := Except.ok.inj hf
      obtain ⟨before, config', since, hfirst, -, hmakes⟩ := exists_first hg
      exact ⟨before, config', since ++ [.compile id config],
        hfirst.concat (a := .compile id config) nofun, hmakes⟩
    · rw [hvalue] at hf
      obtain rfl := Except.ok.inj hf
      exact ⟨h, config, [], ⟨rfl, List.not_mem_nil, unmade_iff.mpr hnone⟩, hmakes⟩
    · rw [hvalue] at hf
      cases hf
  · intro hmade
    obtain ⟨before, config', since, hfirst, hmakes⟩ := hmade
    have hvalue := congrArg Prod.fst (compile_of_makes (unmade_iff.mp hfirst.unmade) hmakes)
    have hsplit := hfirst.split
    rcases List.eq_nil_or_concat since with rfl | ⟨since, last, rfl⟩
    · obtain ⟨rfl, hlast⟩ := List.append_inj' hsplit rfl
      obtain rfl : config = config' := by simpa using hlast
      exact hvalue
    · rw [List.concat_eq_append, ← List.cons_append, ← List.append_assoc] at hsplit
      obtain ⟨rfl, -⟩ := List.append_inj' hsplit rfl
      have hkept : .clear ∉ since := fun hmem => hfirst.kept (by simp [hmem])
      rw [compile_of_cached (cached?_since hvalue hkept)]

/-- An attempt at the id of a built-in heuristic comes through, with its own template. -/
theorem compile_builtin_ok (h : List Act) (b : Builtin) {es : Entries}
    (hconfig : sectionValue config = .map es) :
    ∃ serial es', ((ofActs h).compile b.id config).value.1 = .ok (builtinFunction serial b es') ∧
      (Unmade h b.id → serial = (ofActs h).created ∧ es' = es) := by
  cases hcached : (ofActs h).cached? b.id with
  | none => exact ⟨_, _, by rw [compile_builtin hcached hconfig], fun _ => ⟨rfl, rfl⟩⟩
  | some f =>
    obtain ⟨before, config', since, -, -, hmakes⟩ := exists_first hcached
    obtain ⟨es', -, rfl⟩ := hmakes.builtin
    refine ⟨_, es', by rw [compile_of_cached hcached], fun hunmade => ?_⟩
    cases hcached.symm.trans (unmade_iff.mp hunmade)

theorem lookup_putNamed {α : Type} (name id : String) (a : α) (entries : List (String × α)) :
    (putNamed name a entries).lookup id =
      if id = name then some a else entries.lookup id := by
  induction entries with
  | nil =>
    by_cases hid : id = name
    · simp [putNamed, hid]
    · have hb : (id == name) = false := by simpa using hid
      simp [putNamed, List.lookup_cons, hid, hb]
  | cons entry entries ih =>
    obtain ⟨n, b⟩ := entry
    simp only [putNamed]
    split
    · next hn =>
      subst hn
      by_cases hid : id = n
      · simp [hid]
      · have hb : (id == n) = false := by simpa using hid
        simp [List.lookup_cons, hid, hb]
    · next hn =>
      by_cases hid : id = n
      · subst hid
        simp [hn]
      · have hb : (id == n) = false := by simpa using hid
        simpa [List.lookup_cons, hb] using ih

theorem map_fst_putNamed {α : Type} (name : String) (a : α) (entries : List (String × α)) :
    (putNamed name a entries).map Prod.fst =
      if name ∈ entries.map Prod.fst then entries.map Prod.fst
      else entries.map Prod.fst ++ [name] := by
  induction entries with
  | nil => rfl
  | cons entry entries ih =>
    obtain ⟨n, b⟩ := entry
    simp only [putNamed]
    by_cases hn : n = name
    · simp [hn]
    · have hn' : name ≠ n := Ne.symm hn
      rw [if_neg hn, List.map_cons, ih]
      split <;> simp_all

theorem compileEach_append (c : Compiler) (done : Compiled) (items more : List (String × Value)) :
    (c.compileEach done (items ++ more)).value =
      ((c.compileEach done items).value.2.compileEach
        (c.compileEach done items).value.1 more).value := by
  induction items generalizing c done with
  | nil => rfl
  | cons item items ih =>
    obtain ⟨id, config⟩ := item
    rw [List.cons_append, compileEach_cons, ih, ← compileEach_cons]

/-- An id that is not attempted keeps its outcome. -/
theorem lookup_compileEach (c : Compiler) (done : Compiled) {items : List (String × Value)}
    (hid : id ∉ items.map Prod.fst) :
    (c.compileEach done items).value.1.lookup id = done.lookup id := by
  induction items generalizing c done with
  | nil => rfl
  | cons item items ih =>
    obtain ⟨id', config⟩ := item
    obtain ⟨hne, hrest⟩ := not_or.mp (List.mem_cons.not.mp hid)
    rw [compileEach_cons, ih _ _ hrest, lookup_putNamed, if_neg hne]

/-- What comes of an id is what its last attempt gives, after all attempts before it. -/
theorem lookup_compileMultiple (c : Compiler) (before after : List (String × Value))
    (hid : id ∉ after.map Prod.fst) :
    (c.compileMultiple (before ++ (id, config) :: after)).value.1.lookup id =
      some ((((attempts before).foldl act c).compile id config).value.1.toOption) := by
  rw [compileMultiple, compileEach_append, compileEach_cons, lookup_compileEach _ _ hid,
    lookup_putNamed, if_pos rfl, compileEach_acts]

theorem mem_putNamed {α : Type} (name id : String) (a : α) (entries : List (String × α)) :
    id ∈ (putNamed name a entries).map Prod.fst ↔ id = name ∨ id ∈ entries.map Prod.fst := by
  rw [map_fst_putNamed]
  split
  · next hmem => exact ⟨.inr, fun h => h.elim (fun hid => hid ▸ hmem) fun h => h⟩
  · rw [List.mem_append, List.mem_singleton, or_comm]

theorem nodup_putNamed {α : Type} (name : String) (a : α) {entries : List (String × α)}
    (h : (entries.map Prod.fst).Nodup) : ((putNamed name a entries).map Prod.fst).Nodup := by
  rw [map_fst_putNamed]
  split
  · exact h
  · next hnew =>
    refine List.nodup_append.mpr ⟨h, by simp, fun n hn m hm hnm => hnew ?_⟩
    obtain rfl := List.mem_singleton.mp hm
    exact hnm ▸ hn

/-- Every id that was attempted has one outcome. -/
theorem map_fst_compileEach (c : Compiler) {done : Compiled} (items : List (String × Value))
    (hdone : (done.map Prod.fst).Nodup) :
    ((c.compileEach done items).value.1.map Prod.fst).Nodup ∧
      ∀ id, id ∈ (c.compileEach done items).value.1.map Prod.fst ↔
        id ∈ done.map Prod.fst ∨ id ∈ items.map Prod.fst := by
  induction items generalizing c done with
  | nil => exact ⟨hdone, fun id => by simp [compileEach]⟩
  | cons item items ih =>
    obtain ⟨id, config⟩ := item
    rw [compileEach_cons]
    obtain ⟨hnodup, hmem⟩ := ih (c.compile id config).value.2
      (nodup_putNamed id (c.compile id config).value.1.toOption hdone)
    refine ⟨hnodup, fun id' => ?_⟩
    rw [hmem, mem_putNamed, List.map_cons, List.mem_cons, or_assoc, or_left_comm]

/-- Whether an act is an attempt at an id that the cache holds, or at one that it does not. -/
def attempts? (c : Compiler) (held : Bool) : Act → Bool
  | .compile id _ => (c.cached? id).isSome == held
  | _ => false

/-- The number of attempts in a history that were served from the cache, or of those that were
not. -/
def countAttempts (held : Bool) (h : List Act) : Nat :=
  (List.range h.length).countP fun i => h[i]?.any ((ofActs (h.take i)).attempts? held)

/-- Every attempt is a hit or a miss, and nothing else is. -/
theorem counts_act (c : Compiler) (a : Act) :
    (c.act a).hits = c.hits + (c.attempts? true a).toNat ∧
      (c.act a).misses = c.misses + (c.attempts? false a).toNat := by
  cases a with
  | clear => exact ⟨rfl, rfl⟩
  | register id p =>
    simp only [act, register]
    split
    · exact ⟨rfl, rfl⟩
    · cases proposed? id p <;> exact ⟨rfl, rfl⟩
  | compile id config =>
    simp only [act, attempts?]
    rcases c.compile_cases id config with
      ⟨f, hf, hvalue⟩ | ⟨hnone, ⟨f, -, hvalue⟩ | ⟨e, -, hvalue⟩⟩
    · rw [hvalue, hf]
      exact ⟨rfl, rfl⟩
    · rw [hvalue, hnone]
      exact ⟨rfl, rfl⟩
    · rw [hvalue, hnone]
      exact ⟨rfl, rfl⟩

theorem countAttempts_concat (held : Bool) (h : List Act) (a : Act) :
    countAttempts held (h ++ [a]) =
      countAttempts held h + ((ofActs h).attempts? held a).toNat := by
  have hbefore : ∀ i ∈ List.range h.length,
      (h ++ [a])[i]?.any ((ofActs ((h ++ [a]).take i)).attempts? held) =
        h[i]?.any ((ofActs (h.take i)).attempts? held) := by
    intro i hi
    have hlt := List.mem_range.mp hi
    rw [List.getElem?_append_left hlt, List.take_append_of_le_length (Nat.le_of_lt hlt)]
  rw [countAttempts, List.length_append, List.length_singleton, List.range_succ,
    List.countP_append, List.countP_congr fun i hi => by rw [hbefore i hi], countAttempts]
  simp [List.countP_cons]
  cases (ofActs h).attempts? held a <;> rfl

theorem counts_ofActs (h : List Act) :
    (ofActs h).hits = countAttempts true h ∧ (ofActs h).misses = countAttempts false h := by
  induction h using List.reverseRecOn with
  | nil => exact ⟨rfl, rfl⟩
  | append_singleton h a ih =>
    obtain ⟨hhits, hmisses⟩ := (ofActs h).counts_act a
    rw [ofActs_concat, hhits, hmisses, ih.1, ih.2, countAttempts_concat, countAttempts_concat]
    exact ⟨rfl, rfl⟩

theorem created_act (c : Compiler) (a : Act) : c.created ≤ (c.act a).created := by
  cases a with
  | clear => exact Nat.le_refl _
  | register id p =>
    simp only [act, register]
    split
    · exact Nat.le_refl _
    · cases proposed? id p <;> exact Nat.le_refl _
  | compile id config =>
    simp only [act]
    rcases c.compile_cases id config with ⟨f, -, hvalue⟩ | ⟨-, ⟨f, -, hvalue⟩ | ⟨e, -, hvalue⟩⟩
    · exact Nat.le_of_eq (congrArg (fun r => r.2.created) hvalue).symm
    · rw [hvalue]
      exact Nat.le_succ _
    · exact Nat.le_of_eq (congrArg (fun r => r.2.created) hvalue).symm

theorem created_acts (c : Compiler) (more : List Act) : c.created ≤ (more.foldl act c).created := by
  induction more generalizing c with
  | nil => exact Nat.le_refl _
  | cons a more ih => exact Nat.le_trans (c.created_act a) (ih _)

/-- A place of a history at which a function was made, because the cache did not hold one. -/
structure Creates (h : List Act) (before : List Act) (id : String) (config : Value)
    (f : DecisionFunction) : Prop where
  place : before ++ [.compile id config] <+: h
  missed : (ofActs before).cached? id = none
  makes : (ofActs before).Makes id config f

/-- The serial number is below those that are given later. -/
theorem Creates.serial_lt {before : List Act} (hcreates : Creates h before id config f) :
    f.serial < (ofActs h).created := by
  obtain ⟨since, rfl⟩ := hcreates.place
  rw [ofActs_append, ofActs_concat]
  refine Nat.lt_of_lt_of_le ?_ (created_acts _ since)
  show f.serial < ((ofActs before).compile id config).value.2.created
  rw [compile_of_makes hcreates.missed hcreates.makes, hcreates.makes.serial_eq]
  exact Nat.lt_succ_self _

/-- Functions with one serial number were made at one place. -/
theorem Creates.unique {before before' : List Act} {config' : Value}
    (hcreates : Creates h before id config f) (hcreates' : Creates h before' id' config' f')
    (hserial : f.serial = f'.serial) :
    before ++ [Act.compile id config] = before' ++ [.compile id' config'] := by
  have hlater : ∀ {before before' : List Act} {id id' config config' f f'},
      Creates h before id config f → Creates h before' id' config' f' →
      f.serial = f'.serial → ¬ before ++ [Act.compile id config] <+: before' := by
    intro before before' id id' config config' f f' hfirst hsecond hserial hbegins
    have hlt := Creates.serial_lt ⟨hbegins, hfirst.missed, hfirst.makes⟩
    rw [hserial, hsecond.makes.serial_eq] at hlt
    exact Nat.lt_irrefl _ hlt
  rcases List.prefix_or_prefix_of_prefix hcreates.place hcreates'.place with hbegins | hbegins
  · rcases List.prefix_concat_iff.mp hbegins with hsame | hearlier
    · exact hsame
    · exact absurd hearlier (hlater hcreates hcreates' hserial)
  · rcases List.prefix_concat_iff.mp hbegins with hsame | hearlier
    · exact hsame.symm
    · exact absurd hearlier (hlater hcreates' hcreates hserial.symm)

theorem register_rejected {p : Proposal} {e : Failure}
    (he : (c.register id p).value.1 = .error e) : (c.register id p).value.2 = c := by
  unfold register at he ⊢
  split
  · rfl
  · next hid =>
    rw [if_neg hid] at he
    cases hp : proposed? id p with
    | none => rfl
    | some t =>
      rw [hp] at he
      cases he

theorem register_builtin (c : Compiler) (b : Builtin) (p : Proposal) :
    (c.register b.id p).value.1 = .error (.rejectedTemplate (.overBuiltin b.id)) := by
  rw [register, Builtin.ofId?_id]
  rfl

theorem compile_error_iff {e : Failure} :
    (c.compile id config).value.1 = .error e ↔ c.cached? id = none ∧ c.Refuses id config e := by
  constructor
  · intro he
    rcases c.compile_cases id config with
      ⟨f, -, hvalue⟩ | ⟨hnone, ⟨f, -, hvalue⟩ | ⟨e', hrefuses, hvalue⟩⟩
    · rw [hvalue] at he
      cases he
    · rw [hvalue] at he
      cases he
    · rw [hvalue] at he
      exact ⟨hnone, Except.error.inj he ▸ hrefuses⟩
  · intro h
    obtain ⟨hnone, hrefuses⟩ := h
    rcases c.compile_cases id config with ⟨f, hf, -⟩ | ⟨-, ⟨f, hmakes, -⟩ | ⟨e', he', hvalue⟩⟩
    · cases hnone.symm.trans hf
    · exact absurd hrefuses hmakes.not_refuses
    · rw [hvalue]
      exact congrArg Except.error (he'.unique hrefuses)

/-- A failed attempt leaves a miss, and nothing else. -/
theorem compile_failed {e : Failure} (he : (c.compile id config).value.1 = .error e) :
    (c.compile id config).value.2 = { c with misses := c.misses + 1 } := by
  rcases c.compile_cases id config with ⟨f, -, hvalue⟩ | ⟨-, ⟨f, -, hvalue⟩ | ⟨e', -, hvalue⟩⟩
  · rw [hvalue] at he
    cases he
  · rw [hvalue] at he
    cases he
  · rw [hvalue]

/-- What a new compiler is after some calls. -/
structure IsMemoTable (calls : List Call) : Prop where
  /-- The calls come to their acts, one after the other. -/
  acts : ofCalls calls = ofActs (history calls)
  /-- An attempt gives what the first one made that came through since the cache was cleared. -/
  compiled : ∀ id config f, ((ofCalls calls).compile id config).value.1 = .ok f ↔
    ∃ before config' since, First (history calls ++ [.compile id config]) id before config' since ∧
      (ofActs before).Makes id config' f ∧ f.config = sectionValue config'
  /-- No two functions that were made have one serial number. -/
  distinct : ∀ before id config f before' id' config' f',
    Creates (history calls) before id config f → Creates (history calls) before' id' config' f' →
    f.serial = f'.serial → before ++ [Act.compile id config] = before' ++ [.compile id' config']
  /-- An attempt fails on an unknown id or a template that refuses, and then leaves a miss. -/
  failed : ∀ id config e,
    (((ofCalls calls).compile id config).value.1 = .error e ↔
      Unmade (history calls) id ∧ (ofCalls calls).Refuses id config e) ∧
    (((ofCalls calls).compile id config).value.1 = .error e →
      ((ofCalls calls).compile id config).value.2 =
        { ofCalls calls with misses := (ofCalls calls).misses + 1 })
  rejected : ∀ id p e, ((ofCalls calls).register id p).value.1 = .error e →
    ((ofCalls calls).register id p).value.2 = ofCalls calls
  /-- Its own template is compiled under the id of a built-in heuristic, from whatever mapping or
  absent section is passed, and no other template is. -/
  builtin : ∀ b : Builtin,
    (∀ p, ∃ e, ((ofCalls calls).register b.id p).value.1 = .error e) ∧
    (∀ config f, ((ofCalls calls).compile b.id config).value.1 = .ok f →
      ∃ serial es, f = builtinFunction serial b es) ∧
    ∀ config es, sectionValue config = .map es → ∃ serial es',
      ((ofCalls calls).compile b.id config).value.1 = .ok (builtinFunction serial b es') ∧
      (Unmade (history calls) b.id → serial = (ofCalls calls).created ∧ es' = es)
  /-- Compiling several ids is to compile one after the other. -/
  multiple : ∀ items, ((ofCalls calls).compileMultiple items).value.2 =
      (attempts items).foldl act (ofCalls calls) ∧
    (((ofCalls calls).compileMultiple items).value.1.map Prod.fst).Nodup ∧
    (∀ id, id ∈ ((ofCalls calls).compileMultiple items).value.1.map Prod.fst ↔
      id ∈ items.map Prod.fst) ∧
    ∀ before id config after, items = before ++ (id, config) :: after →
      id ∉ after.map Prod.fst →
      ((ofCalls calls).compileMultiple items).value.1.lookup id =
        some ((((attempts before).foldl act (ofCalls calls)).compile id config).value.1.toOption)
  hits : (ofCalls calls).hits = countAttempts true (history calls)
  misses : (ofCalls calls).misses = countAttempts false (history calls)

theorem isMemoTable (calls : List Call) : IsMemoTable calls := by
  have hacts := ofCalls_eq calls
  refine
    { acts := hacts
      compiled := fun id config f => ?_
      distinct := fun _ _ _ _ _ _ _ _ hcreates hcreates' => hcreates.unique hcreates'
      failed := fun id config e => ⟨?_, compile_failed⟩
      rejected := fun id p e => register_rejected
      builtin := fun b => ⟨fun p => ⟨_, register_builtin _ b p⟩, fun config f hf => ?_,
        fun config es hconfig => hacts ▸ compile_builtin_ok (history calls) b hconfig⟩
      multiple := fun items => ?_
      hits := hacts ▸ (counts_ofActs (history calls)).1
      misses := hacts ▸ (counts_ofActs (history calls)).2 }
  · rw [hacts, compile_ok_iff]
    refine exists_congr fun before => exists_congr fun config' => exists_congr fun since => ?_
    exact and_congr_right fun _ => (and_iff_left_of_imp Makes.config_eq).symm
  · rw [hacts, unmade_iff]
    exact compile_error_iff
  · rw [hacts, compile_ok_iff] at hf
    obtain ⟨before, config', since, -, hmakes⟩ := hf
    obtain ⟨es, -, hf⟩ := hmakes.builtin
    exact ⟨_, es, hf⟩
  · have hnew : (([] : Compiled).map Prod.fst).Nodup := List.nodup_nil
    obtain ⟨hnodup, hmem⟩ := map_fst_compileEach (ofCalls calls) items hnew
    refine ⟨compileEach_acts _ [] items, hnodup, fun id => ?_, ?_⟩
    · exact (hmem id).trans (by simp)
    · intro before id config after hitems hlast
      rw [hitems]
      exact lookup_compileMultiple _ before after hlast

/-- A built-in heuristic asked for without a section, an id that is not known, and the heuristic
again, with a section. -/
def askedTwice : List Call :=
  [.compile Builtin.backCasting.id .null, .compile "unknown" .null,
    .compile Builtin.backCasting.id (.map [(.str "weights", .map [])])]

theorem isMemoTable_askedTwice :
    ((ofCalls askedTwice).compile Builtin.backCasting.id (.map [(.str "weights", .null)])).value.1 =
      .ok (builtinFunction 0 .backCasting []) ∧
    (ofCalls askedTwice).hits = 1 ∧ (ofCalls askedTwice).misses = 2 := by
  have htable := isMemoTable askedTwice
  have hmakes :
      (ofActs []).Makes Builtin.backCasting.id .null (builtinFunction 0 .backCasting []) :=
    .mk _ _ (template?_builtin _ _) rfl
  refine ⟨(htable.compiled _ _ _).mpr ⟨[], .null, _, ⟨rfl, ?_, ?_⟩, hmakes, rfl⟩, ?_, ?_⟩
  · simp [Call.acts]
  · intro before config since hsplit
    simp at hsplit
  · exact htable.hits.trans rfl
  · exact htable.misses.trans rfl

end DecisionGate.Compiler
