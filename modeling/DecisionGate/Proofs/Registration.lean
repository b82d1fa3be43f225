import DecisionGate.Proofs.MemoTable

/-!
# Functions and the templates of their ids

A template can be registered again under its id, and the cache takes no notice of that: a function
lives until the cache is cleared. So a cached function is always that of the template which its id
had when the function was made, and what is reported of the id is the template that it has now. The
two are one as long as nothing was registered under the id in between, which for the id of a
built-in heuristic is always so.
-/
namespace DecisionGate

/-- A function that a template made of a section: it has the tags of the template, and does what the
template makes of the section that it carries. -/
structure DecisionFunction.MadeFrom (f : DecisionFunction) (t : Template) : Prop where
  id_eq : f.id = t.id
  name_eq : f.name = t.name
  domain_eq : f.domain = t.domain
  kind_eq : f.kind = t.kind
  behaviour_eq : t.compile f.config = .ok f.behaviour

namespace Compiler

variable {c : Compiler} {id : String} {config : Value} {f : DecisionFunction} {h : List Act}
  {t : Template}

theorem Makes.madeFrom (hmakes : c.Makes id config f) :
    ∃ t, c.template? id = some t ∧ f.MadeFrom t := by
  obtain ⟨t, b, ht, hb⟩ := hmakes
  exact ⟨t, ht, ⟨rfl, rfl, rfl, rfl, hb⟩⟩

/-- The template that an act puts under an id. The ids of the built-in heuristics are not free. -/
def registered? (id : String) : Act → Option Template
  | .register id' p => if id' = id ∧ Builtin.ofId? id = none then proposed? id p else none
  | _ => none

/-- The template that was put under an id last. -/
def lastRegistered? (h : List Act) (id : String) : Option Template :=
  (h.filterMap (registered? id)).getLast?

theorem lastRegistered?_concat (h : List Act) (a : Act) (id : String) :
    lastRegistered? (h ++ [a]) id = (registered? id a).or (lastRegistered? h id) := by
  rw [lastRegistered?, List.filterMap_append]
  cases ha : registered? id a <;> simp [ha, lastRegistered?]

/-- An attempt or a clearing leaves every template in its place. -/
theorem custom_act {a : Act} (ha : ∀ id p, a ≠ .register id p) : (c.act a).custom = c.custom := by
  cases a with
  | register id p => exact absurd rfl (ha id p)
  | clear => rfl
  | compile id config =>
    rcases c.compile_cases id config with ⟨f, -, hvalue⟩ | ⟨-, ⟨f, -, hvalue⟩ | ⟨e, -, hvalue⟩⟩
    all_goals exact congrArg (fun r => r.2.custom) hvalue

theorem template?_register (c : Compiler) (id id' : String) (p : Proposal) :
    (c.register id' p).value.2.template? id =
      (registered? id (.register id' p)).or (c.template? id) := by
  unfold register
  cases hbuiltin : Builtin.ofId? id' with
  | some b =>
    have hnone : registered? id (.register id' p) = none := by
      refine if_neg ?_
      rintro ⟨rfl, hfree⟩
      cases hfree.symm.trans hbuiltin
    simp [hnone]
  | none =>
    by_cases hid : id = id'
    · subst hid
      cases hp : proposed? id p <;> simp [registered?, hbuiltin, hp, template?, lookup_putNamed]
    · have hne : ¬ id' = id := Ne.symm hid
      cases proposed? id' p <;> simp [registered?, hid, hne, template?, lookup_putNamed]

theorem template?_act (c : Compiler) (a : Act) (id : String) :
    (c.act a).template? id = (registered? id a).or (c.template? id) := by
  cases a with
  | register id' p => exact c.template?_register id id' p
  | clear => rfl
  | compile id' config =>
    have hcustom := custom_act (c := c) (a := .compile id' config) fun _ _ => nofun
    simp only [template?, hcustom, registered?, Option.none_or]

/-- The template of an id changes by registrations only, and of these the last counts. -/
theorem template?_acts (c : Compiler) (more : List Act) (id : String) :
    (more.foldl act c).template? id = (lastRegistered? more id).or (c.template? id) := by
  induction more using List.reverseRecOn with
  | nil => rfl
  | append_singleton more a ih =>
    rw [List.foldl_concat, template?_act, ih, lastRegistered?_concat, Option.or_assoc]

/-- The kind of the functions under an id. -/
def kindUnder (id : String) : Kind :=
  match Builtin.ofId? id with
  | some b => .builtin b
  | none => .custom

theorem tags_of_lastRegistered? (ht : lastRegistered? h id = some t) :
    t.id = id ∧ t.kind = kindUnder id := by
  obtain ⟨a, -, ha⟩ := List.mem_filterMap.mp (List.mem_of_getLast? ht)
  cases a with
  | register id' p =>
    obtain ⟨⟨-, hfree⟩, hp⟩ := Option.ite_none_right_eq_some.mp ha
    unfold proposed? at hp
    split at hp
    · obtain ⟨-, ht⟩ := Option.ite_none_right_eq_some.mp hp
      obtain rfl := Option.some.inj ht
      rw [kindUnder, hfree]
      exact ⟨rfl, rfl⟩
    · cases hp
  | _ => cases ha

theorem tags_of_template? (ht : (ofActs h).template? id = some t) :
    t.id = id ∧ t.kind = kindUnder id := by
  rw [ofActs, template?_acts] at ht
  cases hlast : lastRegistered? h id with
  | some t' =>
    obtain rfl : t' = t := by simpa [hlast] using ht
    exact tags_of_lastRegistered? hlast
  | none =>
    simp only [hlast, Option.none_or, template?] at ht
    cases hb : Builtin.ofId? id with
    | some b =>
      rw [hb] at ht
      obtain rfl := Option.some.inj ht
      rw [kindUnder, hb]
      exact ⟨Builtin.id_of_ofId? hb, rfl⟩
    | none =>
      rw [hb] at ht
      cases ht

/-- Where a cached function comes from, and what is reported of its id. It was made at the first
attempt that came through since the cache was cleared, from the template that the id had then; what
is reported is the template that was registered last since, or else the same. -/
structure Stems (calls : List Call) (id : String) (f : DecisionFunction)
    (origin current : Template) (since : List Act) : Prop where
  made : ∃ before config, First (history calls) id before config since ∧
    (ofActs before).template? id = some origin
  madeFrom : f.MadeFrom origin
  reported : (ofCalls calls).metadata? id = some (current, true)
  current_eq : current = (lastRegistered? since id).getD origin

theorem exists_stems {calls : List Call} (hf : (ofCalls calls).cached? id = some f) :
    ∃ origin current since, Stems calls id f origin current since := by
  have hcompiled : (ofCalls calls).isCompiled id = true := by rw [isCompiled, hf]; rfl
  rw [ofCalls_eq] at hf
  obtain ⟨before, config, since, hfirst, -, hmakes⟩ := exists_first hf
  obtain ⟨origin, horigin, hmade⟩ := hmakes.madeFrom
  refine ⟨origin, (lastRegistered? since id).getD origin, since,
    ⟨before, config, hfirst, horigin⟩, hmade, ?_, rfl⟩
  have hnow : (ofCalls calls).template? id = some ((lastRegistered? since id).getD origin) := by
    rw [ofCalls_eq, hfirst.split, ofActs_append, List.foldl_cons, template?_acts, template?_act,
      horigin]
    cases lastRegistered? since id <;> rfl
  rw [metadata?, hnow, Option.map_some, hcompiled]

theorem Stems.same_tags {calls : List Call} {origin current : Template} {since : List Act}
    (hstems : Stems calls id f origin current since) :
    current.id = origin.id ∧ current.kind = origin.kind := by
  obtain ⟨before, config, -, horigin⟩ := hstems.made
  obtain ⟨hid, hkind⟩ := tags_of_template? horigin
  rw [hstems.current_eq, hid, hkind]
  cases hlast : lastRegistered? since id with
  | none => exact ⟨hid, hkind⟩
  | some t => exact tags_of_lastRegistered? hlast

/-- The function has the tags that are reported exactly when the template that is reported has the
name and the domain of the one that it was made from. -/
theorem Stems.tags_iff {calls : List Call} {origin current : Template} {since : List Act}
    (hstems : Stems calls id f origin current since) :
    (f.name = current.name ∧ f.domain = current.domain ∧ f.kind = current.kind) ↔
      current.name = origin.name ∧ current.domain = origin.domain := by
  rw [hstems.madeFrom.name_eq, hstems.madeFrom.domain_eq, hstems.madeFrom.kind_eq,
    hstems.same_tags.2]
  constructor
  · intro h
    exact ⟨h.1.symm, h.2.1.symm⟩
  · intro h
    exact ⟨h.1.symm, h.2.symm, rfl⟩

theorem Stems.madeFrom_iff {calls : List Call} {origin current : Template} {since : List Act}
    (hstems : Stems calls id f origin current since) :
    f.MadeFrom current ↔ current.name = origin.name ∧ current.domain = origin.domain ∧
      current.compile f.config = origin.compile f.config := by
  constructor
  · intro h
    obtain ⟨hname, hdomain⟩ := hstems.tags_iff.mp ⟨h.name_eq, h.domain_eq, h.kind_eq⟩
    exact ⟨hname, hdomain, h.behaviour_eq.trans hstems.madeFrom.behaviour_eq.symm⟩
  · intro h
    obtain ⟨hname, hdomain, hcompile⟩ := h
    obtain ⟨-, -, hkind⟩ := hstems.tags_iff.mpr ⟨hname, hdomain⟩
    exact
      { id_eq := hstems.madeFrom.id_eq.trans hstems.same_tags.1.symm
        name_eq := hstems.madeFrom.name_eq.trans hname.symm
        domain_eq := hstems.madeFrom.domain_eq.trans hdomain.symm
        kind_eq := hkind
        behaviour_eq := hcompile.trans hstems.madeFrom.behaviour_eq }

theorem lastRegistered?_builtin (h : List Act) (b : Builtin) : lastRegistered? h b.id = none := by
  have hnone : ∀ a, registered? b.id a = none := by
    intro a
    cases a <;> simp [registered?, Builtin.ofId?_id]
  rw [lastRegistered?, List.filterMap_eq_nil_iff.mpr fun a _ => hnone a]
  rfl

/-- A cached function belongs to the template that is reported of its id as far as that is still the
one from which it was made; nothing was registered under the id of a built-in heuristic since. -/
theorem cached_stems {calls : List Call} (hf : (ofCalls calls).cached? id = some f) :
    ∃ origin current since, Stems calls id f origin current since ∧
      (f.MadeFrom current ↔ current.name = origin.name ∧ current.domain = origin.domain ∧
        current.compile f.config = origin.compile f.config) ∧
      ((f.name = current.name ∧ f.domain = current.domain ∧ f.kind = current.kind) ↔
        current.name = origin.name ∧ current.domain = origin.domain) ∧
      (lastRegistered? since id = none → f.MadeFrom current) ∧
      ∀ b : Builtin, id = b.id → current = b.template ∧ f.MadeFrom b.template := by
  obtain ⟨origin, current, since, hstems⟩ := exists_stems hf
  have hkept : lastRegistered? since id = none → current = origin := by
    intro hnone
    rw [hstems.current_eq, hnone]
    rfl
  refine ⟨origin, current, since, hstems, hstems.madeFrom_iff, hstems.tags_iff, ?_, ?_⟩
  · intro hnone
    exact hkept hnone ▸ hstems.madeFrom
  · rintro b rfl
    obtain rfl := hkept (lastRegistered?_builtin since b)
    obtain ⟨before, config, -, horigin⟩ := hstems.made
    obtain rfl := Option.some.inj ((template?_builtin (ofActs before) b).symm.trans horigin)
    exact ⟨rfl, hstems.madeFrom⟩

/-- A template that returns what it is given, under a name. -/
def echoNamed (name : String) : Proposal where
  name := .str name
  domain := .str "testing"
  action := some .echo

/-- A template is registered again after its function was made. -/
def registeredAgain : List Call :=
  [.register "X" (echoNamed "old"), .compile "X" .null, .register "X" (echoNamed "new")]

theorem registeredAgain_names : ∃ f t,
    (ofCalls registeredAgain).cached? "X" = some f ∧ f.name = "old" ∧
      (ofCalls registeredAgain).metadata? "X" = some (t, true) ∧ t.name = "new" :=
  ⟨_, _, rfl, rfl, rfl, rfl⟩

theorem cached_stems_registeredAgain : ∃ f origin current since,
    (ofCalls registeredAgain).cached? "X" = some f ∧
      Stems registeredAgain "X" f origin current since ∧
      origin.name = "old" ∧ current.name = "new" := by
  obtain ⟨f, t, hf, hname, ht, htname⟩ := registeredAgain_names
  obtain ⟨origin, current, since, hstems, -⟩ := cached_stems hf
  obtain rfl : t = current := by simpa using ht.symm.trans hstems.reported
  exact ⟨f, origin, t, since, hf, hstems, hstems.madeFrom.name_eq.symm.trans hname, htname⟩

/-- The function of a template that was replaced stays in the cache, and its id is reported as
compiled under the name of the new one. -/
theorem registeredAgain_stale : ∃ f t,
    (ofCalls registeredAgain).cached? "X" = some f ∧
      (ofCalls registeredAgain).metadata? "X" = some (t, true) ∧
      f.name ≠ t.name ∧ ¬ f.MadeFrom t := by
  obtain ⟨f, t, hf, hname, ht, htname⟩ := registeredAgain_names
  have hne : f.name ≠ t.name := by
    rw [hname, htname]
    decide
  exact ⟨f, t, hf, ht, hne, fun h => hne h.name_eq⟩

end Compiler

end DecisionGate
