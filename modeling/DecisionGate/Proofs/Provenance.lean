import DecisionGate.Proofs.Operation

/-!
# Where the functions come from

A custom template can neither replace a built-in heuristic nor be compiled under its id. So in every
state of every run, what the cache or the bundle holds for a built-in heuristic is the function that
this heuristic becomes under some section, whatever section that is.
-/
namespace DecisionGate

/-- A function that a built-in heuristic became under some section. -/
def DecisionFunction.Is (f : DecisionFunction) (b : Builtin) : Prop :=
  f.id = b.id ∧ ∃ es, f.behaviour = b.behaviour es

namespace Compiler

theorem builtinFunction_is (serial : Nat) (b : Builtin) (es : Entries) :
    (builtinFunction serial b es).Is b := ⟨rfl, es, rfl⟩

/-- What the cache holds under the ids of the built-in heuristics are their functions. -/
def Genuine (c : Compiler) : Prop := ∀ b f, c.cached? b.id = some f → f.Is b

variable {c : Compiler}

theorem genuine_of_compiled_nil (h : c.compiled = []) : c.Genuine := by
  intro b f hf
  simp [cached?, h] at hf

theorem Genuine.congr {c' : Compiler} (h : c.Genuine) (hcompiled : c'.compiled = c.compiled) :
    c'.Genuine := by
  intro b f hf
  rw [cached?, hcompiled] at hf
  exact h b f hf

/-- A new function under an id that was free. -/
theorem Genuine.add {id : String} {f : DecisionFunction} (h : c.Genuine)
    (hf : ∀ b : Builtin, id = b.id → f.Is b) {c' : Compiler}
    (hcompiled : c'.compiled = c.compiled ++ [(id, f)]) : c'.Genuine := by
  intro b f' hf'
  rw [cached?, hcompiled, lookup_append_singleton] at hf'
  cases hold : c.compiled.lookup b.id with
  | some g =>
    obtain rfl : g = f' := by simpa [hold] using hf'
    exact h b g hold
  | none =>
    simp only [hold, Option.none_or] at hf'
    split at hf'
    · next hid =>
      obtain rfl := Option.some.inj hf'
      exact hf b hid.symm
    · cases hf'

/-- Under the id of a built-in heuristic nothing but its own template is compiled. -/
theorem newFunction_is {id : String} {t : Template} {config : Value} {behaviour : Behaviour}
    (ht : c.template? id = some t) (hb : t.compile config = .ok behaviour) (b : Builtin)
    (hid : id = b.id) : (c.newFunction t config behaviour).Is b := by
  subst hid
  obtain rfl : b.template = t := Option.some.inj ((template?_builtin c b).symm.trans ht)
  cases config with
  | map es => exact ⟨rfl, es, (Except.ok.inj hb).symm⟩
  | _ => cases hb

theorem Genuine.compile (h : c.Genuine) (id : String) (config : Value) :
    (c.compile id config).value.2.Genuine ∧
      ∀ b f, id = b.id → (c.compile id config).value.1 = .ok f → f.Is b := by
  cases hcached : c.cached? id with
  | some f =>
    rw [compile_of_cached hcached]
    refine ⟨h, ?_⟩
    rintro b f' rfl hf'
    obtain rfl := Except.ok.inj hf'
    exact h b f hcached
  | none =>
    simp only [Compiler.compile, hcached, Report.value_bind]
    cases ht : ({ c with misses := c.misses + 1 } : Compiler).template? id with
    | none => exact ⟨h, fun _ _ _ hf => by cases hf⟩
    | some t =>
      simp only [Report.value_bind]
      cases hb : t.compile (sectionValue config) with
      | error e => exact ⟨h, fun _ _ _ hf => by cases hf⟩
      | ok behaviour =>
        refine ⟨h.add (newFunction_is ht hb) rfl, ?_⟩
        intro b f hid hf
        exact Except.ok.inj hf ▸ newFunction_is ht hb b hid

theorem Genuine.compileEach (h : c.Genuine) (done : Compiled) (items : List (String × Value)) :
    (c.compileEach done items).value.2.Genuine := by
  induction items generalizing c done with
  | nil => exact h
  | cons item items ih =>
    obtain ⟨id, config⟩ := item
    have hone := (h.compile id config).1
    simp only [Compiler.compileEach, Report.value_bind]
    cases hc : (c.compile id config).value with
    | mk r c' =>
      rw [hc] at hone
      cases r with
      | ok f => exact ih hone _
      | error f => exact ih hone _

theorem genuine_invalidate (c : Compiler) (config : Value) (again : Bool) :
    (c.invalidate config again).value.2.Genuine := by
  have hclear : ({ c with compiled := [] } : Compiler).Genuine := genuine_of_compiled_nil rfl
  simp only [invalidate, clear, Report.value_bind, Report.value_pure]
  split
  · exact hclear
  · cases builtinSections config with
    | error f => exact hclear
    | ok sections => exact hclear.compileEach [] sections

theorem Genuine.register (h : c.Genuine) (id : String) (p : Proposal) :
    (c.register id p).value.2.Genuine := by
  refine h.congr ?_
  unfold Compiler.register
  split
  · rfl
  · cases proposed? id p <;> rfl

end Compiler

namespace Mind

/-- Functions that stand for built-in heuristics are theirs. -/
def AreGenuine (fs : List (Builtin × DecisionFunction)) : Prop := ∀ p ∈ fs, p.2.Is p.1

/-- So it is in the cache and in the bundle. -/
structure Genuine (m : Mind) : Prop where
  compiler : m.compiler.Genuine
  bundle : ∀ b, m.bundle = some b → AreGenuine b.functions

variable {m : Mind}

theorem compileEach_genuine {c : Compiler} (h : c.Genuine) (config : Entries)
    (bs : List Builtin) : (compileEach config c bs).value.2.Genuine ∧
      ∀ fs, (compileEach config c bs).value.1 = .ok fs → AreGenuine fs := by
  induction bs generalizing c with
  | nil =>
    refine ⟨h, fun fs hfs => ?_⟩
    obtain rfl := Except.ok.inj hfs
    intro p hp
    cases hp
  | cons b bs ih =>
    obtain ⟨hnext, hfirst⟩ := h.compile b.id (.map (Config.sectionOf config b.id))
    simp only [compileEach, Report.value_bind]
    cases hc : (c.compile b.id (.map (Config.sectionOf config b.id))).value with
    | mk r c' =>
      rw [hc] at hnext hfirst
      cases r with
      | error e => exact ⟨hnext, fun _ hfs => by cases hfs⟩
      | ok f =>
        obtain ⟨hlast, hrest⟩ := ih hnext
        simp only [Report.value_bind, Report.value_pure]
        refine ⟨hlast, ?_⟩
        intro fs hfs
        cases hmore : (compileEach config c' bs).value.1 with
        | error e => simp [hmore, Except.map] at hfs
        | ok more =>
          obtain rfl : (b, f) :: more = fs := by simpa [hmore, Except.map] using hfs
          rintro p (_ | ⟨_, hp⟩)
          · exact hfirst b f rfl rfl
          · exact hrest more hmore p hp

theorem genuine_published {functions : List (Builtin × DecisionFunction)}
    {artifacts : List (Artifact × Value)} {config : Entries} {source : Config.Source} {m' : Mind}
    (hc : m.compiler.Genuine) (hfs : AreGenuine functions)
    (h : m.publish artifacts functions config source = .ok m') : m'.Genuine := by
  unfold publish at h
  split at h
  · cases h
  · obtain rfl := Except.ok.inj h
    exact ⟨hc, fun b hb => Option.some.inj hb ▸ hfs⟩

theorem Genuine.assemble (h : m.Genuine) (config : Entries) (tree : Files.Tree) :
    (m.assemble config tree).value.2.Genuine ∧ ∀ artifacts functions,
      (m.assemble config tree).value.1 = .ok (artifacts, functions) → AreGenuine functions := by
  obtain ⟨hcompiler, hfunctions⟩ := compileEach_genuine h.compiler config Builtin.all
  constructor
  · simp only [Mind.assemble, Report.value_bind]
    cases (m.shelf.loadAll tree).value.1 with
    | error f => exact ⟨h.compiler, h.bundle⟩
    | ok artifacts => exact ⟨hcompiler, h.bundle⟩
  · intro artifacts functions hparts
    exact hfunctions functions (assemble_functions hparts)

theorem Genuine.load (h : m.Genuine) (tree : Files.Tree) : (m.load tree).value.2.Genuine := by
  cases hb : m.bundle with
  | some b =>
    rw [load_loaded hb]
    exact h
  | none =>
    obtain ⟨read, hread⟩ : ∃ read : Mind, read = { m with store := (m.store.get tree).value.2 } :=
      ⟨_, rfl⟩
    have hstart : read.Genuine := hread ▸ ⟨h.compiler, h.bundle⟩
    have hresolve := m.resolve_value tree
    rw [← hread] at hresolve
    simp only [Mind.load, hb, Report.value_bind, hresolve]
    split
    · exact hstart
    · next config source _ =>
      obtain ⟨hm, hfs⟩ := hstart.assemble config tree
      simp only [Report.value_bind]
      cases hparts : (read.assemble config tree).value with
      | mk parts m' =>
        rw [hparts] at hm hfs
        cases parts with
        | error f =>
          cases hstops : f.stopsLoading <;> simpa [hstops] using hm
        | ok parts =>
          obtain ⟨artifacts, functions⟩ := parts
          cases hpub : m'.publish artifacts functions config source with
          | error f => simpa [hpub] using hm
          | ok m'' =>
            simpa [hpub] using genuine_published hm.compiler (hfs artifacts functions rfl) hpub

theorem Genuine.renew (h : m.Genuine) (c : Config.Change) : (m.renew c).value.2.Genuine := by
  cases hacc : Config.accepted? c.new.entries m.environment with
  | none => rwa [renew_refused hacc]
  | some config =>
    cases hb : m.bundle with
    | none => rwa [renew_unloaded hb]
    | some b =>
      have hfs : AreGenuine (m.compiler.renewedFunctions config) := by
        intro p hp
        obtain ⟨n, hn⟩ := Compiler.eq_of_mem_builtinFunctions hp
        exact hn ▸ Compiler.builtinFunction_is n p.1 _
      have hne : config ≠ [] := by
        obtain ⟨hcheck, rfl⟩ := Config.accepted?_eq_some.mp hacc
        exact Config.ne_nil_of_check hcheck
      obtain ⟨done, hdone⟩ := m.compiler.invalidate_value hne
      have hrenewed := m.compiler.genuine_invalidate (.map config) true
      rw [hdone] at hrenewed
      have hcompiler : (m.passed config).Genuine := hrenewed.congr rfl
      rw [renew_accepted hb hacc]
      split
      · exact ⟨hcompiler, h.bundle⟩
      · exact ⟨hcompiler, fun b' hb' => Option.some.inj hb' ▸ hfs⟩

theorem Genuine.told (h : m.Genuine) (c : Config.Change) (is : List Subscriber) :
    (told c is m).Genuine := by
  induction is generalizing m with
  | nil => exact h
  | cons i is ih => exact ih (h.renew c)

theorem Genuine.handle (h : m.Genuine) (tree : Files.Tree) :
    (audience.handle tree m).value.2.Genuine := by
  by_cases hread : ∃ d, (Config.readDocument m.store.toOrigin tree).value = .ok (some d)
  · obtain ⟨d, hd⟩ := hread
    obtain ⟨c, -, hhandle⟩ := handle_read hd
    have hkept : (m.keeping d).Genuine := ⟨h.compiler, h.bundle⟩
    rw [hhandle]
    exact hkept.told c m.store.subscribers
  · rwa [handle_unread fun d hd => hread ⟨d, hd⟩]

theorem Genuine.processUpTo (h : m.Genuine) (tree : Files.Tree) (fuel : Nat) :
    (audience.processUpTo tree fuel m).value.2.Genuine :=
  Config.Audience.processUpTo_keeps (I := Genuine) tree (fun _ _ _ _ h => ⟨h.compiler, h.bundle⟩)
    (fun _ h => h.handle tree) fuel h

end Mind

namespace Gate

theorem function_compiler (g : Gate) (id : String) :
    (g.function id).value.2.compiler = g.compiler ∨
      (g.function id).value.2.compiler = (g.compiler.compile id .null).value.2 := by
  unfold function
  cases g.prepared id with
  | some f => exact .inl rfl
  | none => exact .inr rfl

/-- A run of a gate compiles one heuristic at most. -/
theorem execute_compiler (g : Gate) (d : Definition) (context : Value) :
    (g.execute d context).value.2.compiler = g.compiler ∨
      ∃ id, (g.execute d context).value.2.compiler = (g.compiler.compile id .null).value.2 := by
  have htarget : ∀ c criteria es, (g.runTarget c criteria es).value.2.compiler = g.compiler ∨
      ∃ id, (g.runTarget c criteria es).value.2.compiler =
        (g.compiler.compile id .null).value.2 := by
    intro c criteria es
    unfold runTarget
    cases c.target with
    | heuristic id => exact (g.function_compiler id).imp_right fun h => ⟨id, h⟩
    | validator name =>
      simp only
      cases checkTable.lookup name with
      | none => exact .inl rfl
      | some check => cases check <;> exact .inl rfl
  unfold execute
  cases d.read with
  | error f => cases d.fallbackName <;> exact .inl rfl
  | ok phase =>
    obtain ⟨name, _ | c⟩ := phase
    · exact .inl rfl
    · simp only [Report.value_bind, Report.value_pure, runCheckpoint]
      split
      · exact .inl rfl
      · simp only [Report.value_bind]
        split <;> exact htarget c _ _

end Gate

namespace Services

theorem genuine_step {s : Services} (h : s.mind.Genuine) (op : Operation) :
    (s.step op).mind.Genuine := by
  cases op with
  | load => exact h.load s.tree
  | session id =>
    simp only [step, session_mind]
    split
    · exact h.load s.tree
    · exact h
  | process => exact h.processUpTo s.tree _
  | reloadConfig =>
    have hasked : (s.mind.notify "reload_request").Genuine := ⟨h.compiler, h.bundle⟩
    exact hasked.processUpTo s.tree _
  | compile id config => exact ⟨(h.compiler.compile id config).1, h.bundle⟩
  | invalidate config again => exact ⟨s.mind.compiler.genuine_invalidate config again, h.bundle⟩
  | register id p => exact ⟨h.compiler.register id p, h.bundle⟩
  | execute d context =>
    refine ⟨?_, h.bundle⟩
    rcases s.gate.execute_compiler d context with hsame | ⟨id, hcompiled⟩
    · exact h.compiler.congr (congrArg Compiler.compiled hsame)
    · exact ((h.compiler.compile id .null).1).congr (congrArg Compiler.compiled hcompiled)
  | reset => exact ⟨Compiler.genuine_of_compiled_nil rfl, fun _ hb => by cases hb⟩
  | destroyAll => exact ⟨Compiler.genuine_of_compiled_nil rfl, fun _ hb => by cases hb⟩
  | _ => exact ⟨h.compiler, h.bundle⟩

theorem build_compiler {settings : Settings} {tree : Files.Tree} {s : Services}
    (h : (build settings tree).value = .ok s) : s.mind.compiler = {} := by
  simp only [build, Mind.start, Report.value_bind, Report.value_pure, Config.Store.watch] at h
  cases hseen : tree.fingerprint settings.configPath with
  | error p => simp [hseen, Except.map] at h
  | ok seen =>
    simp only [hseen, Except.map] at h
    cases h
    rfl

/-- In every state of every run. -/
theorem genuine_after {settings : Settings} {tree : Files.Tree} {s : Services}
    (hs : (build settings tree).value = .ok s) (ops : List Operation) :
    (s.after ops).mind.Genuine := by
  have hrun : ∀ s : Services, s.mind.Genuine → (s.after ops).mind.Genuine := by
    induction ops with
    | nil => exact fun _ h => h
    | cons op ops ih => exact fun s h => ih (s.step op) (genuine_step h op)
  obtain ⟨-, -, -, -, hnone, -⟩ := build_eq hs
  have hcompiler : s.mind.compiler.Genuine :=
    Compiler.genuine_of_compiled_nil (congrArg Compiler.compiled (build_compiler hs))
  exact hrun s ⟨hcompiler, fun b hb => absurd (hnone.symm.trans hb) (by simp)⟩

/-- The bundle has no other function for a built-in heuristic. -/
theorem bundle_function_is {m : Mind} (h : m.Genuine) {bundle : Mind.Bundle}
    (hbundle : m.bundle = some bundle) {b : Builtin} {f : DecisionFunction}
    (hf : bundle.function? b.id = some f) : f.Is b := by
  obtain ⟨p, hp, rfl⟩ := List.mem_map.mp (List.mem_of_find?_eq_some hf)
  have hid : p.2.id = b.id := by simpa using List.find?_some hf
  have his : p.2.Is p.1 := h.bundle bundle hbundle p hp
  exact Builtin.id_injective (his.1.symm.trans hid) ▸ his

/-- Nor has the gate of the services. -/
theorem gate_function_is {s : Services} (h : s.mind.Genuine) {b : Builtin} {f : DecisionFunction}
    (hf : (s.gate.function b.id).value.1 = .ok f) : f.Is b := by
  unfold Gate.function at hf
  cases hprepared : s.gate.prepared b.id with
  | some f' =>
    obtain rfl : f' = f := by simpa [hprepared] using hf
    obtain ⟨bundle, hbundle, hfound⟩ := Option.bind_eq_some_iff.mp hprepared
    exact bundle_function_is h hbundle hfound
  | none =>
    simp only [hprepared, Report.value_bind, Report.value_pure] at hf
    exact (h.compiler.compile b.id .null).2 b f rfl hf

end Services

end DecisionGate
