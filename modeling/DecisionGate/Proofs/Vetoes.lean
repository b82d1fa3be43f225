import DecisionGate.Proofs.Assessment
import DecisionGate.Proofs.Provenance
import DecisionGate.Proofs.Verdicts

/-!
# Vetoes of the built-in heuristics at the gate

The gate finds the vetoes of a heuristic by itself and does not ask the decision for its own. For
the automation check both look at the guardrails and come to the same. For the coherence scan they
are about different people: the decision is about the one that the context describes, the gate about
the executors that the context lists. Back-casting never vetoes.
-/
namespace DecisionGate

theorem BackCasting.decide_veto {s : BackCasting.Settings Value} {i : BackCastingInput}
    {x : Decision} (h : BackCasting.decide s i = .ok x) : x.veto = false := by
  obtain ⟨o, -, rfl⟩ := map_eq_ok.mp h
  rfl

/-- The automation check vetoes exactly what has no guardrails. -/
theorem Automation.decide_veto {s : Automation.Settings Value} {i : AutomationInput}
    {x : Decision} (h : Automation.decide s i = .ok x) : x.veto = !i.hasGuardrails := by
  obtain ⟨o, ho, rfl⟩ := map_eq_ok.mp h
  rcases Automation.assess_cases ho with
    ⟨hguardrails, tippingPoint, rfl⟩ | ⟨hguardrails, c, rfl, -, -⟩
  · rw [hguardrails]
    rfl
  · rw [hguardrails]
    rfl

namespace Gate

/-- Whether something is an executor of a low truthfulness. -/
def isLowExecutor : Value → Bool
  | .map es => isLow ((Entries.get? es "truthfulness").getD .null)
  | _ => false

/-- A context lists an executor of a low truthfulness. -/
def HasLowExecutor (context : Value) : Prop :=
  ∃ executors executor, context.field "executors" = .list executors ∧ executor ∈ executors ∧
    isLowExecutor executor = true

theorem isSome_itemVeto {p : Value × Nat} {o : Option Veto} (h : itemVeto p = .ok o) :
    o.isSome = isLowExecutor p.1 := by
  obtain ⟨v, i⟩ := p
  cases v with
  | map es =>
    simp only [itemVeto, executorVeto] at h
    split at h
    · next hlow =>
      obtain ⟨veto, -, rfl⟩ := map_eq_ok.mp h
      simp [isLowExecutor, hlow]
    · next hlow =>
      obtain rfl := Except.ok.inj h
      simp [isLowExecutor, hlow]
  | _ =>
    obtain rfl := Except.ok.inj h
    rfl

theorem executorVetoes_ne_nil {context : Entries} {vetoes : List Veto}
    (h : executorVetoes context = .ok vetoes) :
    vetoes ≠ [] ↔ HasLowExecutor (.map context) := by
  cases hitems : ((context.get? "executors").getD .null).items? with
  | none =>
    have hnone : ¬ HasLowExecutor (.map context) := by
      intro hlow
      obtain ⟨executors, -, hlist, -⟩ := hlow
      simp only [Value.field] at hlist
      simp [hlist, Value.items?] at hitems
    rw [executorVetoes_other hitems] at h
    split at h
    · cases h
    · obtain rfl := Except.ok.inj h
      simp [hnone]
  | some executors =>
    have hlist := eq_list_of_items? hitems
    rw [executorVetoes_list hlist] at h
    obtain ⟨found, hfound, rfl⟩ := map_eq_ok.mp h
    constructor
    · intro hne
      obtain ⟨veto, hveto⟩ := List.exists_mem_of_ne_nil _ hne
      obtain ⟨o, ho, rfl⟩ := List.mem_filterMap.mp hveto
      obtain ⟨p, hp, hok⟩ := (mem_of_mapM_ok hfound (some veto)).mp ho
      exact ⟨executors, p.1, hlist, List.fst_mem_of_mem_zipIdx hp, (isSome_itemVeto hok).symm⟩
    · intro hlow
      obtain ⟨executors', executor, hlist', hmem, hisLow⟩ := hlow
      obtain rfl : executors = executors' := Value.list.inj (hlist.symm.trans hlist')
      obtain ⟨p, hp, hplow⟩ := (exists_mem_zipIdx (n := 0)
        (p := fun v => isLowExecutor v = true)).mpr ⟨executor, hmem, hisLow⟩
      have hok : ¬ Fails (itemVeto p) := by
        intro hfails
        have := fails_mapM.mpr ⟨p, hp, hfails⟩
        simp [hfound] at this
      obtain ⟨o, ho⟩ := exists_ok_iff.mpr hok
      have hsome : o.isSome = true := (isSome_itemVeto ho).trans hplow
      obtain ⟨veto, rfl⟩ := Option.isSome_iff_exists.mp hsome
      have hin : some veto ∈ found := (mem_of_mapM_ok hfound _).mpr ⟨p, hp, ho⟩
      exact List.ne_nil_of_mem (List.mem_filterMap.mpr ⟨some veto, hin, rfl⟩)

/-- What the automation check reads as guardrails, the gate does too. -/
theorem hasGuardrails_eq {context : Value} {i : AutomationInput}
    (h : AutomationInput.ofContext context = .ok i) : hasGuardrails context = i.hasGuardrails := by
  obtain ⟨_, -, h⟩ := bind_eq_ok.mp h
  obtain ⟨_, -, h⟩ := bind_eq_ok.mp h
  obtain ⟨_, -, h⟩ := bind_eq_ok.mp h
  obtain ⟨flag, hflag, h⟩ := bind_eq_ok.mp h
  obtain rfl := Except.ok.inj h
  unfold hasGuardrails
  cases hv : Input.canonicalField automationAliases context "has_guardrails" <;>
    simp_all [Input.flag, Value.isTruthy]

/-- What the gate vetoes for a built-in heuristic, given its decision. -/
def MustVeto (b : Builtin) (x : Decision) (context : Value) : Prop :=
  match b with
  | .coherenceScan => HasLowExecutor context
  | _ => x.veto = true

theorem heuristicVetoes_ne_nil {b : Builtin} {f : DecisionFunction} (hf : f.Is b)
    {context : Entries} {x : Decision} (hx : f.call (.map context) = .ok (.decision x))
    {vetoes : List Veto} (h : heuristicVetoes b.id context = .ok vetoes) :
    vetoes ≠ [] ↔ MustVeto b x (.map context) := by
  obtain ⟨-, es, hbehaviour⟩ := hf
  rw [DecisionFunction.call, hbehaviour] at hx
  simp only [heuristicVetoes, Builtin.ofId?_id] at h
  cases b with
  | backCasting =>
    obtain ⟨i, -, hx⟩ := bind_eq_ok.mp hx
    obtain ⟨x', hx', hxx'⟩ := bind_eq_ok.mp hx
    cases hxx'
    obtain rfl := Except.ok.inj h
    simp [MustVeto, BackCasting.decide_veto (mapError_eq_ok.mp hx')]
  | coherenceScan => exact executorVetoes_ne_nil h
  | automationCheck =>
    obtain ⟨i, hi, hx⟩ := bind_eq_ok.mp hx
    obtain ⟨x', hx', hxx'⟩ := bind_eq_ok.mp hx
    cases hxx'
    obtain rfl := Except.ok.inj h
    simp [MustVeto, Automation.decide_veto (mapError_eq_ok.mp hx'),
      hasGuardrails_eq (mapError_eq_ok.mp hi)]

/-- A run is prepared when its context is a mapping and all of its criteria can be read. -/
theorem prepare_eq_ok {c : Checkpoint} {context : Value} {criteria : List Criteria.Criterion}
    {es : Entries} :
    prepare c context = .ok (criteria, es) ↔
      context = .map es ∧ c.criteria.all Criteria.Item.isReportable = true ∧
        Criteria.parseAll c.criteria = .ok criteria := by
  cases context with
  | map fields =>
    simp only [prepare]
    split
    · next hreportable =>
      cases hparse : Criteria.parseAll c.criteria <;> simp [hreportable, and_comm]
    · next hhidden => simp [hhidden]
  | _ => simp [prepare]

theorem Ran.vetoes_ne_nil {g : Gate} {d : Definition} {context : Value} {c : Checkpoint}
    {criteria : List Criteria.Criterion} {es : Entries} {o : Outcome} {b : Builtin}
    {f : DecisionFunction} {x : Decision} (hran : Ran g d context c criteria es o)
    (htarget : c.target = .heuristic b.id) (hf : (g.function b.id).value.1 = .ok f)
    (his : f.Is b) (hx : f.call (contextOf context) = .ok (.decision x)) :
    o.vetoes ≠ [] ↔ MustVeto b x (contextOf context) := by
  have hcontext : contextOf context = .map es := (prepare_eq_ok.mp hran.prepared).1
  have houtcome := hran.outcome
  rw [runTarget_heuristic htarget, hf, ok_bind] at houtcome
  obtain ⟨_, -, houtcome⟩ := bind_eq_ok.mp houtcome
  obtain ⟨vetoes, hvetoes, houtcome⟩ := bind_eq_ok.mp houtcome
  obtain ⟨_, -, houtcome⟩ := bind_eq_ok.mp houtcome
  have hsame : o.vetoes = vetoes := by
    split at houtcome
    · cases houtcome
    · exact Except.ok.inj houtcome ▸ rfl
  rw [hcontext] at hx ⊢
  rw [hsame]
  exact heuristicVetoes_ne_nil his hx hvetoes

end Gate

namespace Services

variable {settings : Settings} {tree : Files.Tree} {s : Services}

/-- What a state makes of a checkpoint on a built-in heuristic: the decision and the verdict. -/
def decisionAndVerdict (s : Services) (b : Builtin) (d : Gate.Definition) (context : Value) :
    Option (Decision × Gate.Verdict) :=
  match (s.gate.function b.id).value.1 with
  | .error _ => none
  | .ok f =>
    match f.call (Gate.contextOf context), (s.execute d context).value.1 with
    | .ok (.decision x), .ok v => some (x, v)
    | _, _ => none

theorem decisionAndVerdict_eq_some {b : Builtin} {d : Gate.Definition} {context : Value}
    {x : Decision} {v : Gate.Verdict}
    (h : s.decisionAndVerdict b d context = some (x, v)) :
    ∃ f, (s.gate.function b.id).value.1 = .ok f ∧
      f.call (Gate.contextOf context) = .ok (.decision x) ∧
      (s.execute d context).value.1 = .ok v := by
  unfold decisionAndVerdict at h
  split at h
  · cases h
  · next f hf =>
    split at h
    · next hx hv =>
      obtain ⟨rfl, rfl⟩ := Prod.mk.inj (Option.some.inj h)
      exact ⟨f, hf, hx, hv⟩
    · cases h

/-- A checkpoint on a built-in heuristic, without criteria. -/
def bareCheckpoint (b : Builtin) : Gate.Checkpoint := { name := "gate", target := .heuristic b.id }

/-- At every point of every run, for every checkpoint on a built-in heuristic: what the gate must
veto does not pass. It is vetoed, unless the run ends in an error, and nothing else is. -/
theorem execute_veto {b : Builtin} {d : Gate.Definition} {name : String} {c : Gate.Checkpoint}
    {f : DecisionFunction} {context : Value} {x : Decision} {v : Gate.Verdict}
    (hs : (build settings tree).value = .ok s) (ops : List Operation)
    (hread : d.read = .ok ⟨name, some c⟩) (htarget : c.target = .heuristic b.id)
    (hf : ((s.after ops).gate.function b.id).value.1 = .ok f)
    (hx : f.call (Gate.contextOf context) = .ok (.decision x))
    (hv : ((s.after ops).execute d context).value.1 = .ok v) :
    (Gate.MustVeto b x (Gate.contextOf context) →
        v.passed = false ∧ (v.veto = true ∨ v.error = true)) ∧
      (v.veto = true → Gate.MustVeto b x (Gate.contextOf context)) := by
  have his : f.Is b := gate_function_is (genuine_after hs ops) hf
  have hmust : ∀ {c' criteria es o}, Gate.Ran (s.after ops).gate d context c' criteria es o →
      (o.vetoes ≠ [] ↔ Gate.MustVeto b x (Gate.contextOf context)) := by
    intro c' criteria es o hran
    obtain ⟨name', hread'⟩ := hran.read
    obtain rfl := Gate.checkpoint_unique hread hread'
    exact hran.vetoes_ne_nil htarget hf his hx
  obtain ⟨kind, hends⟩ := Gate.ends_of_execute hv
  cases hends with
  | skipped name' hread' => simp [hread] at hread'
  | vetoed c' criteria es o hran hvetoes =>
    exact ⟨fun _ => ⟨rfl, .inl rfl⟩, fun _ => (hmust hran).mp hvetoes⟩
  | passed c' criteria es o results hran hvetoes heach hall =>
    exact ⟨fun h => absurd hvetoes ((hmust hran).mpr h), nofun⟩
  | failed c' criteria es o results hran hvetoes heach hsome =>
    exact ⟨fun h => absurd hvetoes ((hmust hran).mpr h), nofun⟩
  | error name' failure hproblem =>
    exact ⟨fun _ => ⟨rfl, .inr rfl⟩, nofun⟩

set_option maxRecDepth 100000 in
theorem execute_veto_guardrails : ∃ s f x v,
    (build (bareSettings []) bareTree).value = .ok s ∧
      ((s.after [.load]).gate.function Builtin.automationCheck.id).value.1 = .ok f ∧
      f.call (Gate.contextOf .null) = .ok (.decision x) ∧ x.veto = true ∧
      ((s.after [.load]).execute (.checkpoint (bareCheckpoint .automationCheck)) .null).value.1 =
        .ok v ∧ v.passed = false ∧ (v.veto = true ∨ v.error = true) := by
  obtain ⟨s, hs, hboth⟩ := exists_of_bareRun [] [.load] (fun s =>
    (s.decisionAndVerdict .automationCheck (.checkpoint (bareCheckpoint .automationCheck))
      .null).any fun p => p.1.veto) (by decide +kernel)
  obtain ⟨⟨x, v⟩, hsome, hveto⟩ := (Option.any_eq_true _ _).mp hboth
  obtain ⟨f, hf, hx, hv⟩ := decisionAndVerdict_eq_some hsome
  obtain ⟨hpassed, hkept⟩ := (execute_veto hs [.load] rfl rfl hf hx hv).1 hveto
  exact ⟨s, f, x, v, hs, hf, hx, hveto, hv, hpassed, hkept⟩

/-- Somebody whose truthfulness is zero, and no executors. -/
def untruthful : Value := Value.ofNames [("truthfulness", .int 0)]

set_option maxRecDepth 100000 in
theorem untruthful_passes : ∃ s f x v,
    (build (bareSettings []) bareTree).value = .ok s ∧
      (s.gate.function Builtin.coherenceScan.id).value.1 = .ok f ∧
      f.call untruthful = .ok (.decision x) ∧ x.veto = true ∧
      (s.execute (.checkpoint (bareCheckpoint .coherenceScan)) untruthful).value.1 = .ok v ∧
      v.passed = true ∧ v.veto = false ∧ v.error = false := by
  obtain ⟨s, hs, hboth⟩ := exists_of_bareRun [] [] (fun s =>
    (s.decisionAndVerdict .coherenceScan (.checkpoint (bareCheckpoint .coherenceScan))
      untruthful).any fun p => p.1.veto && p.2.passed && !p.2.veto && !p.2.error)
    (by decide +kernel)
  obtain ⟨⟨x, v⟩, hsome, hlost⟩ := (Option.any_eq_true _ _).mp hboth
  obtain ⟨f, hf, hx, hv⟩ := decisionAndVerdict_eq_some hsome
  simp only [Bool.and_eq_true, Bool.not_eq_true'] at hlost
  obtain ⟨⟨⟨hveto, hpassed⟩, hkept⟩, hfine⟩ := hlost
  exact ⟨s, f, x, v, hs, hf, hx, hveto, hv, hpassed, hkept, hfine⟩

end Services

end DecisionGate
