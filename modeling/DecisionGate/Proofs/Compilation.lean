import DecisionGate.Mind.Basic
import DecisionGate.Proofs.Results

/-!
# Compiling the built-in heuristics

The compiler's cache is keyed by the id alone. This module says exactly what compiling one built-in
heuristic does to the cache, what a pass over several of them gives from an arbitrary cache, and
what the two passes of a reload give from a cleared one: a pass that fills the cache with fresh
functions, and a pass that finds every one of them there.
-/
namespace DecisionGate

theorem Builtin.id_injective : Function.Injective Builtin.id := by
  intro a b h
  have hb : Builtin.ofId? a.id = some b := h ▸ Builtin.ofId?_id b
  exact Option.some.inj ((Builtin.ofId?_id a).symm.trans hb)

theorem Builtin.nodup_all : Builtin.all.Nodup := by decide

namespace Compiler

/-- The function that a built-in heuristic becomes under a section, with its serial number. -/
def builtinFunction (serial : Nat) (b : Builtin) (es : Entries) : DecisionFunction where
  serial := serial
  id := b.id
  name := b.title
  domain := b.domain
  kind := .builtin b
  config := .map es
  behaviour := b.behaviour es

/-- The functions of some built-in heuristics under a configuration, numbered one after the
other. -/
def builtinFunctions (config : Entries) (serial : Nat) :
    List Builtin → List (Builtin × DecisionFunction)
  | [] => []
  | b :: rest =>
    (b, builtinFunction serial b (Config.sectionOf config b.id)) ::
      builtinFunctions config (serial + 1) rest

/-- Functions as the cache holds them. -/
def underIds (fs : List (Builtin × DecisionFunction)) : List (String × DecisionFunction) :=
  fs.map fun p => (p.1.id, p.2)

theorem map_fst_builtinFunctions (config : Entries) (serial : Nat) (bs : List Builtin) :
    (builtinFunctions config serial bs).map Prod.fst = bs := by
  induction bs generalizing serial with
  | nil => rfl
  | cons b bs ih => simp [builtinFunctions, ih]

theorem eq_of_mem_builtinFunctions {config : Entries} {serial : Nat} {bs : List Builtin}
    {b : Builtin} {f : DecisionFunction} (h : (b, f) ∈ builtinFunctions config serial bs) :
    ∃ n, f = builtinFunction n b (Config.sectionOf config b.id) := by
  induction bs generalizing serial with
  | nil => simp [builtinFunctions] at h
  | cons a bs ih =>
    simp only [builtinFunctions, List.mem_cons, Prod.mk.injEq] at h
    rcases h with ⟨rfl, rfl⟩ | h
    · exact ⟨serial, rfl⟩
    · exact ih h

theorem template?_builtin (c : Compiler) (b : Builtin) : c.template? b.id = some b.template := by
  simp [template?, Builtin.ofId?_id]

theorem sectionValue_map (es : Entries) : sectionValue (.map es) = .map es := by
  cases es <;> rfl

theorem sectionValue_null : sectionValue .null = .map [] := rfl

theorem compile_of_cached {c : Compiler} {id : String} {f : DecisionFunction}
    (h : c.cached? id = some f) (config : Value) :
    (c.compile id config).value = (.ok f, { c with hits := c.hits + 1 }) := by
  simp [compile, h]

/-- A built-in heuristic that is not in the cache is compiled from what is passed. -/
theorem compile_builtin {c : Compiler} {b : Builtin} (h : c.cached? b.id = none) {config : Value}
    {es : Entries} (hc : sectionValue config = .map es) :
    (c.compile b.id config).value = (.ok (builtinFunction c.created b es),
      { c with
        misses := c.misses + 1
        compiled := c.compiled ++ [(b.id, builtinFunction c.created b es)]
        created := c.created + 1 }) := by
  have ht : ({ c with misses := c.misses + 1 } : Compiler).template? b.id = some b.template :=
    template?_builtin _ b
  simp only [compile, h, Report.value_bind, ht, hc]
  rfl

/-- What was added is found, and nothing else changes what is found. -/
theorem lookup_append_singleton {α : Type} {id id' : String} {a : α}
    (entries : List (String × α)) :
    (entries ++ [(id', a)]).lookup id =
      (entries.lookup id).or (if id = id' then some a else none) := by
  induction entries with
  | nil =>
    by_cases h : id = id'
    · simp [h]
    · have hb : (id == id') = false := by simpa using h
      simp [List.lookup_cons, h, hb]
  | cons p entries ih =>
    obtain ⟨id'', b⟩ := p
    by_cases h : id = id''
    · simp [h]
    · have hb : (id == id'') = false := by simpa using h
      simpa [List.lookup_cons, hb] using ih

/-- A pass over built-in heuristics from an arbitrary cache never fails. A function that the cache
holds is taken as it is, whatever it was compiled from. -/
theorem compileEach_ok (config : Entries) (c : Compiler) (bs : List Builtin) (h : bs.Nodup) :
    ∃ fs, (Mind.compileEach config c bs).value.1 = .ok fs ∧ fs.map Prod.fst = bs ∧
      ∀ p ∈ fs, c.cached? p.1.id = some p.2 ∨ c.cached? p.1.id = none ∧
        ∃ n, p.2 = builtinFunction n p.1 (Config.sectionOf config p.1.id) := by
  induction bs generalizing c with
  | nil => exact ⟨[], rfl, rfl, by simp⟩
  | cons b bs ih =>
    obtain ⟨hb, hbs⟩ := List.nodup_cons.mp h
    have hne : ∀ a ∈ bs, a.id ≠ b.id := fun a ha hab => hb (Builtin.id_injective hab ▸ ha)
    cases hc : c.cached? b.id with
    | some f =>
      obtain ⟨fs, hfs, hmap, hall⟩ := ih { c with hits := c.hits + 1 } hbs
      refine ⟨(b, f) :: fs, ?_, by simp [hmap], ?_⟩
      · simp [Mind.compileEach, compile_of_cached hc, hfs, Except.map]
      · rintro p (_ | ⟨_, hp⟩)
        · exact .inl hc
        · exact hall p hp
    | none =>
      obtain ⟨fs, hfs, hmap, hall⟩ := ih { c with
        misses := c.misses + 1
        compiled := c.compiled ++
          [(b.id, builtinFunction c.created b (Config.sectionOf config b.id))]
        created := c.created + 1 } hbs
      refine ⟨(b, builtinFunction c.created b (Config.sectionOf config b.id)) :: fs,
        ?_, by simp [hmap], ?_⟩
      · simp [Mind.compileEach, compile_builtin hc (sectionValue_map _), hfs, Except.map]
      · rintro p (_ | ⟨_, hp⟩)
        · exact .inr ⟨hc, _, rfl⟩
        · have hid : p.1.id ≠ b.id := hne p.1 (hmap ▸ List.mem_map_of_mem hp)
          simpa [cached?, lookup_append_singleton, hid] using hall p hp

/-- A pass over functions that the cache already holds gives them, and counts a hit for each. -/
theorem compileEach_of_cached (config : Entries) (c : Compiler)
    (fs : List (Builtin × DecisionFunction)) (h : ∀ p ∈ fs, c.cached? p.1.id = some p.2) :
    (Mind.compileEach config c (fs.map Prod.fst)).value =
      (.ok fs, { c with hits := c.hits + fs.length }) := by
  induction fs generalizing c with
  | nil => rfl
  | cons p fs ih =>
    have hp : c.cached? p.1.id = some p.2 := h p List.mem_cons_self
    have hrest := ih { c with hits := c.hits + 1 } fun q hq => h q (List.mem_cons_of_mem p hq)
    simp only [List.map_cons, Mind.compileEach, Report.value_bind, compile_of_cached hp, hrest]
    simp [Except.map]
    omega

/-- The compiler once it has compiled built-in heuristics that its cache did not hold. -/
def withFresh (c : Compiler) (config : Entries) (bs : List Builtin) : Compiler :=
  { c with
    compiled := c.compiled ++ underIds (builtinFunctions config c.created bs)
    misses := c.misses + bs.length
    created := c.created + bs.length }

/-- The sections of some built-in heuristics, as the compiler takes them. -/
def sections (config : Entries) (bs : List Builtin) : List (String × Value) :=
  bs.map fun b => (b.id, .map (Config.sectionOf config b.id))

theorem builtinSections_map (config : Entries) :
    builtinSections (.map config) = .ok (sections config Builtin.all) := rfl

theorem compileEach_fresh (config : Entries) (c : Compiler) (done : Compiled) (bs : List Builtin)
    (hd : bs.Nodup) (h : ∀ b ∈ bs, c.cached? b.id = none) :
    (c.compileEach done (sections config bs)).value.2 = c.withFresh config bs := by
  induction bs generalizing c done with
  | nil => simp [sections, compileEach, withFresh, underIds, builtinFunctions]
  | cons b bs ih =>
    obtain ⟨hb, hbs⟩ := List.nodup_cons.mp hd
    have hnone : c.cached? b.id = none := h b List.mem_cons_self
    let f := builtinFunction c.created b (Config.sectionOf config b.id)
    let next : Compiler :=
      { c with
        misses := c.misses + 1
        compiled := c.compiled ++ [(b.id, f)]
        created := c.created + 1 }
    have hnext : ∀ a ∈ bs, next.cached? a.id = none := by
      intro a ha
      have hid : a.id ≠ b.id := fun hab => hb (Builtin.id_injective hab ▸ ha)
      have hc : c.compiled.lookup a.id = none := h a (List.mem_cons_of_mem b ha)
      simp [next, cached?, lookup_append_singleton, hid, hc]
    have hrest := ih next (putNamed b.id (some f) done) hbs hnext
    have hstep : (c.compileEach done (sections config (b :: bs))).value.2 =
        (next.compileEach (putNamed b.id (some f) done) (sections config bs)).value.2 := by
      simp [sections, compileEach, compile_builtin hnone (sectionValue_map _), next, f]
    rw [hstep, hrest]
    simp only [withFresh, next, f, underIds, builtinFunctions, List.map_cons, List.length_cons,
      List.append_assoc, List.singleton_append, Compiler.mk.injEq]
    refine ⟨trivial, trivial, trivial, ?_, ?_⟩ <;> omega

theorem lookup_underIds {fs : List (Builtin × DecisionFunction)} (hd : (fs.map Prod.fst).Nodup)
    {p : Builtin × DecisionFunction} (hp : p ∈ fs) : (underIds fs).lookup p.1.id = some p.2 := by
  induction fs with
  | nil => cases hp
  | cons q fs ih =>
    obtain ⟨hq, hfs⟩ := List.nodup_cons.mp hd
    rcases List.mem_cons.mp hp with rfl | hp
    · simp [underIds]
    · have hid : p.1.id ≠ q.1.id := fun hpq =>
        hq (Builtin.id_injective hpq ▸ List.mem_map_of_mem hp)
      have hb : (p.1.id == q.1.id) = false := by simpa using hid
      have hrest : (underIds fs).lookup p.1.id = some p.2 := ih hfs hp
      simpa [underIds, List.lookup_cons, hb] using hrest

/-- The compiler after a reload: its cache holds the built-in heuristics, compiled from a
configuration, and nothing else. -/
def renewed (c : Compiler) (config : Entries) : Compiler :=
  { c with compiled := [] }.withFresh config Builtin.all

/-- The functions that a reload publishes. -/
def renewedFunctions (c : Compiler) (config : Entries) : List (Builtin × DecisionFunction) :=
  builtinFunctions config c.created Builtin.all

theorem compiled_renewed (c : Compiler) (config : Entries) :
    (c.renewed config).compiled = underIds (c.renewedFunctions config) := rfl

theorem map_fst_renewedFunctions (c : Compiler) (config : Entries) :
    (c.renewedFunctions config).map Prod.fst = Builtin.all :=
  map_fst_builtinFunctions config c.created Builtin.all

/-- A configuration that is not empty is compiled anew as a whole. -/
theorem invalidate_value (c : Compiler) {config : Entries} (h : config ≠ []) :
    ∃ done, (c.invalidate (.map config) true).value = (.ok (some done), c.renewed config) := by
  have ht : (Value.map config).isTruthy = true := by
    simpa [Value.isTruthy] using h
  have hfresh := compileEach_fresh config { c with compiled := [] } [] Builtin.all
    Builtin.nodup_all (by intro b _; rfl)
  refine ⟨(({ c with compiled := [] } : Compiler).compileEach []
    (sections config Builtin.all)).value.1, ?_⟩
  simp only [invalidate, Report.value_bind, ht, builtinSections_map, Bool.not_true,
    Bool.or_self, Bool.false_eq_true, if_false, compileMultiple, clear, Report.value_pure]
  exact Prod.ext rfl hfresh

/-- The pass that follows finds every function that the first one left in the cache. -/
theorem compileEach_renewed (c : Compiler) (config : Entries) :
    (Mind.compileEach config (c.renewed config) Builtin.all).value =
      (.ok (c.renewedFunctions config),
        { c.renewed config with hits := c.hits + Builtin.all.length }) := by
  have hmap := c.map_fst_renewedFunctions config
  have hd : ((c.renewedFunctions config).map Prod.fst).Nodup := hmap ▸ Builtin.nodup_all
  have hcached : ∀ p ∈ c.renewedFunctions config,
      (c.renewed config).cached? p.1.id = some p.2 := fun p hp => lookup_underIds hd hp
  have hpass := compileEach_of_cached config (c.renewed config) (c.renewedFunctions config) hcached
  rw [hmap] at hpass
  exact hpass

end Compiler

end DecisionGate
