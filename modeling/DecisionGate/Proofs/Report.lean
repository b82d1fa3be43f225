import DecisionGate.Gate.Execution
import DecisionGate.Proofs.Results

/-!
# What a heuristic cannot report

The report on a heuristic takes numbers and names out of a context and out of an answer, and both
can be anything. This module says exactly when it fails with a failure that is none of the library's
own: on an integer that no double holds or that is too long to be shown, on a name that is no text,
and on a mapping that holds itself.
-/
namespace DecisionGate

namespace Schema

theorem fails_ap {α β : Type} {g : Checked (α → β)} {x : Checked α} :
    Fails (Checked.ap g x) ↔ Fails g ∨ Fails x := by
  cases g <;> cases x <;> simp [Checked.ap]

theorem fails_text {v : Value} : Fails (text v) ↔ v.text? = none := by
  cases v <;> simp [text, refuse, Value.text?]

end Schema

namespace Gate

/-- An integer that no double holds. -/
def TooLarge (v : Value) : Prop := ∃ i, v = .int i ∧ Double.ofInt? i = none

theorem fails_number {v : Value} (h : v.isNumber = true) :
    Fails (Schema.number v) ↔ TooLarge v := by
  cases v with
  | int i => cases hd : Double.ofInt? i <;> simp [Schema.number, Schema.refuse, hd, TooLarge]
  | float x => simp [Schema.number, TooLarge]
  | _ => simp [Value.isNumber] at h

theorem fails_toDouble {v : Value} {n : Number} (h : v.isNumber = true) (hn : v.number? = some n) :
    Fails n.toDouble ↔ TooLarge v := by
  cases v with
  | int i =>
    obtain rfl : Number.int i = n := Option.some.inj hn
    cases hd : Double.ofInt? i <;> simp [Number.toDouble, hd, TooLarge]
  | float x =>
    obtain rfl : Number.float x = n := Option.some.inj hn
    simp [Number.toDouble, TooLarge]
  | _ => simp [Value.isNumber] at h

theorem not_tooLarge {v : Value} (h : v.isNumber = false) : ¬ TooLarge v := by
  intro hx
  obtain ⟨i, rfl, -⟩ := hx
  simp [Value.isNumber] at h

theorem number?_of_isNumber {v : Value} (h : v.isNumber = true) : ∃ n, v.number? = some n := by
  cases v <;> simp_all [Value.isNumber, Value.number?]

theorem liftFault_foreign {α : Type} (r : Except Fault α) : Foreign (liftFault r) := by
  cases r <;> simp [liftFault, Failure.isDomain]

theorem shown_foreign (v : Value) : Foreign (shown v) := by
  cases h : v.hasText <;> simp [shown, h, Failure.isDomain]

theorem shown_fails {v : Value} : Fails (shown v) ↔ v.hasText = false := by
  cases h : v.hasText <;> simp [shown, h]

/-- An executor of a low truthfulness that cannot be reported. -/
def Unreportable (executor : Entries) : Prop :=
  let name := (executor.get? "name").getD .null
  let truthfulness := (executor.get? "truthfulness").getD .null
  isLow truthfulness = true ∧
    (name.isTruthy = true ∧ name.text? = none ∨ truthfulness.hasText = false ∨
      TooLarge truthfulness)

theorem text?_executorName (index : Nat) (executor : Entries) :
    (executorName index executor).text? = none ↔
      ((executor.get? "name").getD .null).isTruthy = true ∧
        ((executor.get? "name").getD .null).text? = none := by
  simp only [executorName]
  split
  · next h => simp [h]
  · next h => simp [h, Value.text?]

theorem lowVeto_foreign (name truthfulness : Value) : Foreign (lowVeto name truthfulness) := by
  refine foreign_bind (shown_foreign name) fun _ => foreign_bind (shown_foreign truthfulness) ?_
  intro _ f hf
  have hschema : ∀ r : Schema.Checked Veto, r.mapError (Failure.schema "Veto") = .error f →
      f.isDomain = false := by
    intro r hr
    cases r with
    | error ps =>
      obtain rfl := Except.error.inj hr
      rfl
    | ok v => cases hr
  exact hschema _ hf

theorem lowVeto_fails {name truthfulness : Value} (h : truthfulness.isNumber = true) :
    Fails (lowVeto name truthfulness) ↔
      name.text? = none ∨ truthfulness.hasText = false ∨ TooLarge truthfulness := by
  cases hname : name.hasText with
  | true =>
    cases hfound : truthfulness.hasText with
    | true =>
      simp [lowVeto, shown, hname, hfound, Schema.fails_ap, Schema.Checked.under,
        fails_number h, Schema.fails_text]
    | false => simp [lowVeto, shown, hname, hfound]
  | false =>
    have hnone : name.text? = none := by
      cases name <;> simp_all [Value.hasText, Value.text?]
    simp [lowVeto, shown, hname, hnone]

theorem isNumber_of_isLow {v : Value} (h : isLow v = true) : v.isNumber = true := by
  simp only [isLow, Bool.and_eq_true] at h
  exact h.1

theorem executorVeto_foreign (index : Nat) (executor : Entries) :
    Foreign (executorVeto index executor) := by
  simp only [executorVeto]
  split
  · exact foreign_map (lowVeto_foreign _ _)
  · exact foreign_ok _

theorem executorVeto_fails (index : Nat) (executor : Entries) :
    Fails (executorVeto index executor) ↔ Unreportable executor := by
  simp only [executorVeto, Unreportable]
  split
  · next hlow =>
    rw [fails_map, lowVeto_fails (isNumber_of_isLow hlow), text?_executorName]
    simp [hlow]
  · next hlow => simp [hlow]

theorem orEmpty_list (xs : List Value) : orEmpty (.list xs) = .inl xs := by
  cases xs <;> simp [orEmpty, Value.isTruthy]

theorem orEmpty_other {v : Value} (h : v.items? = none) :
    orEmpty v = if v.isTruthy then .inr v else .inl [] := by
  cases v <;> simp_all [orEmpty, Value.items?]

/-- The executors of a context are something else than a list, and are not absent. -/
def RefusesExecutors (context : Entries) : Prop :=
  let executors := (context.get? "executors").getD .null
  executors.items? = none ∧ executors.isTruthy = true

/-- Some executor of a context cannot be reported. -/
def HidesExecutor (context : Entries) : Prop :=
  ∃ executors executor, (context.get? "executors").getD .null = .list executors ∧
    .map executor ∈ executors ∧ Unreportable executor

/-- The veto on an item of the executors; what is no mapping has none. -/
def itemVeto (p : Value × Nat) : Except Failure (Option Veto) :=
  match p.1 with
  | .map es => executorVeto p.2 es
  | _ => .ok none

theorem itemVeto_foreign (p : Value × Nat) : Foreign (itemVeto p) := by
  obtain ⟨v, i⟩ := p
  cases v with
  | map es => exact executorVeto_foreign i es
  | _ => exact foreign_ok _

theorem itemVeto_fails (p : Value × Nat) :
    Fails (itemVeto p) ↔ ∃ es, p.1 = .map es ∧ Unreportable es := by
  obtain ⟨v, i⟩ := p
  cases v <;> simp [itemVeto, executorVeto_fails]

theorem executorVetoes_list {context : Entries} {executors : List Value}
    (h : (context.get? "executors").getD .null = .list executors) :
    executorVetoes context =
      (executors.zipIdx.mapM itemVeto).map (List.filterMap id) := by
  have hmap : executorVetoes context = (do
      let found ← executors.zipIdx.mapM itemVeto
      .ok (found.filterMap id)) := by
    simp only [executorVetoes, h, orEmpty_list]
    rfl
  rw [hmap]
  cases executors.zipIdx.mapM itemVeto <;> rfl

theorem executorVetoes_list_fails {context : Entries} {executors : List Value}
    (h : (context.get? "executors").getD .null = .list executors) :
    Fails (executorVetoes context) ↔ HidesExecutor context := by
  have hsome : (∃ v ∈ executors, ∃ es, v = .map es ∧ Unreportable es) ↔
      HidesExecutor context := by
    constructor
    · intro hx
      obtain ⟨v, hv, es, rfl, hes⟩ := hx
      exact ⟨executors, es, h, hv, hes⟩
    · intro hx
      obtain ⟨executors', es, h', hes, hbad⟩ := hx
      obtain rfl : executors = executors' := Value.list.inj (h.symm.trans h')
      exact ⟨.map es, hes, es, rfl, hbad⟩
  rw [executorVetoes_list h, fails_map, fails_mapM, ← hsome]
  simp only [itemVeto_fails]
  exact exists_mem_zipIdx (p := fun v => ∃ es, v = Value.map es ∧ Unreportable es)

theorem executorVetoes_other {context : Entries}
    (h : ((context.get? "executors").getD .null).items? = none) :
    executorVetoes context =
      if ((context.get? "executors").getD .null).isTruthy then
        .error (refused "executors must be a list" "executors")
      else .ok [] := by
  simp only [executorVetoes, orEmpty_other h]
  cases ((context.get? "executors").getD .null).isTruthy <;> rfl

theorem eq_list_of_items? {v : Value} {xs : List Value} (h : v.items? = some xs) :
    v = .list xs := by
  cases v <;> simp_all [Value.items?]

theorem not_hidesExecutor {context : Entries}
    (h : ((context.get? "executors").getD .null).items? = none) : ¬ HidesExecutor context := by
  intro hx
  obtain ⟨executors, -, hlist, -⟩ := hx
  simp [hlist, Value.items?] at h

theorem executorVetoes_escapes (context : Entries) :
    Escapes (executorVetoes context) ↔ HidesExecutor context := by
  cases hitems : ((context.get? "executors").getD .null).items? with
  | some executors =>
    have hlist := eq_list_of_items? hitems
    rw [← executorVetoes_list_fails hlist]
    apply escapes_iff_fails
    rw [executorVetoes_list hlist]
    exact foreign_map (foreign_mapM itemVeto_foreign)
  | none =>
    rw [executorVetoes_other hitems]
    split <;> simp [not_hidesExecutor hitems, refused, Failure.isDomain]

theorem executorVetoes_fails (context : Entries) :
    Fails (executorVetoes context) ↔ RefusesExecutors context ∨ HidesExecutor context := by
  cases hitems : ((context.get? "executors").getD .null).items? with
  | some executors =>
    rw [executorVetoes_list_fails (eq_list_of_items? hitems)]
    simp [RefusesExecutors, hitems]
  | none =>
    rw [executorVetoes_other hitems]
    split <;> simp_all [RefusesExecutors, not_hidesExecutor hitems]

/-- What makes the report on a heuristic impossible, once it has given its details. -/
inductive Unreported (id : String) (context details : Entries) : Prop
  | executor : id = Builtin.coherenceScan.id → HidesExecutor context →
      Unreported id context details
  | detail : ¬ (id = Builtin.coherenceScan.id ∧ RefusesExecutors context) →
      TooLarge ((details.get? "score").getD .null) ∨ flatFault? details ≠ none →
      Unreported id context details

theorem heuristicVetoes_coherence (context : Entries) :
    heuristicVetoes Builtin.coherenceScan.id context = executorVetoes context := by
  simp [heuristicVetoes, Builtin.ofId?_id]

theorem heuristicVetoes_other {id : String} (h : id ≠ Builtin.coherenceScan.id)
    (context : Entries) : ∃ vetoes, heuristicVetoes id context = .ok vetoes := by
  unfold heuristicVetoes
  split
  · next hid => exact absurd (Builtin.id_of_ofId? hid).symm h
  · exact ⟨_, rfl⟩
  · exact ⟨_, rfl⟩

theorem detailScore_foreign (details : Entries) : Foreign (detailScore details) := by
  unfold detailScore
  simp only
  split
  · exact foreign_map (liftFault_foreign _)
  · exact foreign_ok _

theorem detailScore_fails (details : Entries) :
    Fails (detailScore details) ↔ TooLarge ((details.get? "score").getD .null) := by
  unfold detailScore
  simp only
  generalize (details.get? "score").getD .null = v
  cases hnumber : v.isNumber with
  | true =>
    obtain ⟨n, hn⟩ := number?_of_isNumber hnumber
    rw [hn]
    simp [liftFault, fails_toDouble hnumber hn]
  | false => simp [not_tooLarge hnumber]

mutual

theorem flatFault?_isDomain {es : List (Key × Value)} {f : Failure} (h : flatFault? es = some f) :
    f.isDomain = false := by
  match es with
  | [] => simp [flatFault?] at h
  | (k, v) :: rest =>
    rw [flatFault?] at h
    split at h
    · cases hv : memberFault? v with
      | some g =>
        rw [hv] at h
        obtain rfl : g = f := Option.some.inj h
        exact memberFault?_isDomain hv
      | none =>
        rw [hv] at h
        have hrest : flatFault? rest = some f := h
        exact flatFault?_isDomain hrest
    · obtain rfl := Option.some.inj h
      rfl

theorem memberFault?_isDomain {v : Value} {f : Failure} (h : memberFault? v = some f) :
    f.isDomain = false := by
  match v with
  | .map es =>
    rw [memberFault?] at h
    exact flatFault?_isDomain h
  | .endless _ =>
    obtain rfl := Option.some.inj h
    rfl
  | .null | .bool _ | .int _ | .float _ | .str _ | .list _ => simp [memberFault?] at h

end

/-- The vetoes that come with a heuristic escape with an executor, and are refused as a whole when
the executors are no list. -/
theorem heuristicVetoes_escapes (id : String) (context : Entries) :
    Escapes (heuristicVetoes id context) ↔
      id = Builtin.coherenceScan.id ∧ HidesExecutor context := by
  by_cases hid : id = Builtin.coherenceScan.id
  · subst hid
    simp [heuristicVetoes_coherence, executorVetoes_escapes]
  · obtain ⟨vetoes, h⟩ := heuristicVetoes_other hid context
    simp [h, hid]

theorem heuristicVetoes_fails (id : String) (context : Entries) :
    Fails (heuristicVetoes id context) ↔
      id = Builtin.coherenceScan.id ∧ (RefusesExecutors context ∨ HidesExecutor context) := by
  by_cases hid : id = Builtin.coherenceScan.id
  · subst hid
    simp [heuristicVetoes_coherence, executorVetoes_fails]
  · obtain ⟨vetoes, h⟩ := heuristicVetoes_other hid context
    simp [h, hid]

theorem unreported_iff {id : String} {context details : Entries} :
    Unreported id context details ↔
      id = Builtin.coherenceScan.id ∧ HidesExecutor context ∨
      ¬ (id = Builtin.coherenceScan.id ∧ (RefusesExecutors context ∨ HidesExecutor context)) ∧
        (TooLarge ((details.get? "score").getD .null) ∨ flatFault? details ≠ none) := by
  constructor
  · intro hx
    rcases hx with ⟨hid, h⟩ | ⟨hok, h⟩
    · exact .inl ⟨hid, h⟩
    · by_cases hhides : id = Builtin.coherenceScan.id ∧ HidesExecutor context
      · exact .inl hhides
      · refine .inr ⟨?_, h⟩
        intro hx
        obtain ⟨hid, hrefused | hhidden⟩ := hx
        · exact hok ⟨hid, hrefused⟩
        · exact hhides ⟨hid, hhidden⟩
  · intro hx
    rcases hx with ⟨hid, h⟩ | ⟨hok, h⟩
    · exact .executor hid h
    · exact .detail (fun hrefused => hok ⟨hrefused.1, .inl hrefused.2⟩) h

/-- The steps of a report, once the heuristic has answered. -/
theorem heuristicOutcome_answered {f : DecisionFunction} {id : String} {context : Entries}
    {answer : Answer} (h : f.call (.map context) = .ok answer) :
    Escapes (heuristicOutcome f id context) ↔
      Escapes (heuristicVetoes id context) ∨ ¬ Fails (heuristicVetoes id context) ∧
        (Fails (detailScore (detailsOf answer)) ∨ flatFault? (detailsOf answer) ≠ none) := by
  have hscore := escapes_iff_fails (detailScore_foreign (detailsOf answer))
  simp only [heuristicOutcome, h, mapError_ok, ok_bind, escapes_bind]
  cases heuristicVetoes id context with
  | error e => simp
  | ok vetoes =>
    cases hs : detailScore (detailsOf answer) with
    | error e => simp_all
    | ok score =>
      cases hflat : flatFault? (detailsOf answer) with
      | some e => simp [flatFault?_isDomain hflat]
      | none => simp

/-- The report on what a heuristic gave escapes exactly when it is one of those. -/
theorem heuristicOutcome_escapes (f : DecisionFunction) (id : String) (context : Entries) :
    Escapes (heuristicOutcome f id context) ↔
      ∃ answer, f.call (.map context) = .ok answer ∧
        Unreported id context (detailsOf answer) := by
  cases hcall : f.call (.map context) with
  | error e => simp [heuristicOutcome, hcall, Failure.isDomain]
  | ok answer =>
    rw [heuristicOutcome_answered hcall, heuristicVetoes_escapes, heuristicVetoes_fails,
      detailScore_fails, ← unreported_iff]
    simp

end Gate

end DecisionGate
