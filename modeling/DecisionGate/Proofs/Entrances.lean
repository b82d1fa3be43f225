import DecisionGate.Proofs.Inputs
import DecisionGate.Proofs.Provenance
import DecisionGate.Tool.Basic
import DecisionGate.Web.Application

/-!
# Ways to a heuristic

A context comes to a built-in heuristic through a tool or a strict request, which pass its strict
input on, or through a lenient request or a gate, which pass it on as it is. A context that the
strict reading accepts has the same outcome on every way: a tool prints what it would print without
its check, and a request is answered alike whether it asks for the check or not.
-/
namespace DecisionGate

/-- A function of a heuristic does the same with a context and with its strict input. -/
theorem DecisionFunction.call_alike {f : DecisionFunction} {b : Builtin} (hf : f.Is b)
    {context : Value} {input : Entries} (h : StrictInput.ofContext b context = .ok input) :
    f.call (.map input) = f.call context := by
  obtain ⟨-, settings, hsettings⟩ := hf
  rw [DecisionFunction.call, DecisionFunction.call, hsettings]
  exact StrictInput.run_alike h settings

namespace Tool

theorem prepare_is {t : Tool} {s : Surroundings} {f : DecisionFunction} {source : Config.Source}
    (h : prepare t s = .ok (f, source)) : f.Is t := by
  obtain ⟨found, -, hrest⟩ := bind_eq_ok.mp h
  obtain ⟨⟨config, source'⟩, -, hcompiled⟩ := bind_eq_ok.mp hrest
  obtain ⟨f', hf', hpair⟩ := bind_eq_ok.mp hcompiled
  obtain ⟨rfl, -⟩ := Prod.mk.inj (Except.ok.inj hpair)
  have hgenuine : ({} : Compiler).Genuine := Compiler.genuine_of_compiled_nil rfl
  exact (hgenuine.compile (Builtin.id t) _).2 t f' rfl hf'

/-- What a tool does with the strict input it does with the context. -/
theorem execute_alike {t : Tool} {es input : Entries}
    (h : StrictInput.ofContext t (.map es) = .ok input) (s : Surroundings) :
    execute t s input = execute t s es := by
  unfold execute
  split
  · rfl
  · next f source hprepare => rw [DecisionFunction.call_alike (prepare_is hprepare) h]

theorem judge_alike {t : Tool} {es input : Entries}
    (h : StrictInput.ofContext t (.map es) = .ok input) (s : Surroundings) :
    judge t s (.map es) = execute t s es := by
  simp only [judge, h, execute_alike h]

end Tool

namespace Web

/-- Where the function of a request is found: in the bundle of the mind, which is loaded for it, or
else it is compiled. -/
theorem functionOf_eq_ok {s : Services} {id : String} {f : DecisionFunction}
    (hf : (functionOf s id).value.1 = .ok f) :
    ∃ t, (t = s ∨ t = s.load.value.2) ∧
      ((∃ bundle, t.mind.bundle = some bundle ∧ bundle.function? id = some f) ∨
        (t.mind.compiler.compile id .null).value.1 = .ok f) := by
  have hcompile (t : Services) :
      (t.compile id .null).value.1 = (t.mind.compiler.compile id .null).value.1 := rfl
  cases hbundle : s.mind.bundle with
  | some bundle =>
    refine ⟨s, .inl rfl, ?_⟩
    simp only [functionOf, hbundle, Report.value_bind, Report.value_pure] at hf
    cases hfound : bundle.function? id with
    | some g => exact .inl ⟨bundle, hbundle, by simp_all⟩
    | none =>
      simp only [hfound, Report.value_bind] at hf
      rw [← hcompile]
      right
      split at hf <;> simp_all
  | none =>
    refine ⟨s.load.value.2, .inr rfl, ?_⟩
    simp only [functionOf, hbundle, Report.value_bind] at hf
    cases hload : s.load.value.1 with
    | error e => simp [hload] at hf
    | ok bundle =>
      simp only [hload] at hf
      cases hfound : bundle.function? id with
      | some g => exact .inl ⟨bundle, Mind.bundle_of_load hload, by simp_all⟩
      | none =>
        simp only [hfound, Report.value_bind] at hf
        rw [← hcompile]
        right
        split at hf <;> simp_all

/-- The function that a request for a built-in heuristic is answered with is its own. -/
theorem functionOf_is {s : Services} (h : s.mind.Genuine) {b : Builtin} {f : DecisionFunction}
    (hf : (functionOf s b.id).value.1 = .ok f) : f.Is b := by
  obtain ⟨t, ht, hfound⟩ := functionOf_eq_ok hf
  have hgenuine : t.mind.Genuine := by
    rcases ht with rfl | rfl
    · exact h
    · exact h.load s.tree
  rcases hfound with ⟨bundle, hbundle, hfound⟩ | hcompiled
  · exact Services.bundle_function_is hgenuine hbundle hfound
  · exact (hgenuine.compiler.compile b.id .null).2 b f rfl hcompiled

/-- A strict request passes the strict input on, and its answer is that to the context. -/
theorem callContext_alike {b : Builtin} {es input : Entries}
    (h : StrictInput.ofContext b (.map es) = .ok input) {f : DecisionFunction} (hf : f.Is b) :
    (callContext b.id ⟨es, true⟩).bind (answerCall f) =
      (callContext b.id ⟨es, false⟩).bind (answerCall f) := by
  have hstrict : callContext b.id ⟨es, true⟩ = .ok (.map input) := by
    simp [callContext, Builtin.ofId?_id, h]
  have hlenient : callContext b.id ⟨es, false⟩ = .ok (.map es) := by simp [callContext]
  have hanswer : answerCall f (.map input) = answerCall f (.map es) := by
    unfold answerCall
    rw [f.call_alike hf h]
  rw [hstrict, hlenient]
  exact hanswer

/-- A request that can be read is answered with the function found for it. -/
theorem evaluate_of_body {s : Services} {id body : String} {q : Evaluation}
    (hbody : bodyOf Evaluation.check body = .ok q) :
    evaluate s id body =
      ⟨((functionOf s id).value.1.bind fun f => (callContext id q).bind (answerCall f),
        (functionOf s id).value.2), (functionOf s id).notes ++ []⟩ := by
  rw [evaluate, hbody]
  rfl

theorem evaluate_alike {s : Services} (hs : s.mind.Genuine) {b : Builtin} {es input : Entries}
    (h : StrictInput.ofContext b (.map es) = .ok input) {body body' : String}
    (hbody : bodyOf Evaluation.check body = .ok ⟨es, true⟩)
    (hbody' : bodyOf Evaluation.check body' = .ok ⟨es, false⟩) :
    evaluate s b.id body = evaluate s b.id body' := by
  have hanswers : (functionOf s b.id).value.1.bind
        (fun f => (callContext b.id ⟨es, true⟩).bind (answerCall f)) =
      (functionOf s b.id).value.1.bind
        (fun f => (callContext b.id ⟨es, false⟩).bind (answerCall f)) := by
    cases hf : (functionOf s b.id).value.1 with
    | error r => rfl
    | ok f => exact callContext_alike h (functionOf_is hs hf)
  rw [evaluate_of_body hbody, evaluate_of_body hbody', hanswers]

end Web

namespace Services

/-- The services at some point of some run. -/
def Reached (s : Services) : Prop :=
  ∃ settings tree start ops, (build settings tree).value = .ok start ∧ s = start.after ops

theorem Reached.genuine {s : Services} (h : s.Reached) : s.mind.Genuine := by
  obtain ⟨settings, tree, start, ops, hstart, rfl⟩ := h
  exact genuine_after hstart ops

end Services

namespace StrictInput

/-- A context that the strict reading accepts is adapted leniently to the same inputs as its strict
input, and every compiled function of the heuristic does the same with both. So a tool ends as it
would without its check, a strict request is answered as a lenient one, and a gate calls its
function with the same result. -/
theorem strict_agrees_with_lenient {b : Builtin} {context : Value} {input : Entries}
    (h : ofContext b context = .ok input) :
    (∃ inputs, b.adapt context = .ok inputs ∧ b.adapt (.map input) = .ok inputs) ∧
      (∀ settings, ∃ f, b.template.compile (.map settings) = .ok f ∧
        f.run (.map input) = f.run context) ∧
      ∃ es, context = .map es ∧
        (∀ s, Tool.judge b s context = Tool.execute b s es) ∧
        ∀ s : Services, s.Reached →
          (∀ body body', Web.bodyOf Web.Evaluation.check body = .ok ⟨es, true⟩ →
            Web.bodyOf Web.Evaluation.check body' = .ok ⟨es, false⟩ →
            Web.evaluate s b.id body = Web.evaluate s b.id body') ∧
          ∀ f, (s.gate.function b.id).value.1 = .ok f →
            f.call context = f.call (.map input) := by
  obtain ⟨es, rfl⟩ := eq_map_of_ofContext h
  refine ⟨adapt_alike h, ?_, es, rfl, Tool.judge_alike h, ?_⟩
  · intro settings
    exact ⟨b.behaviour settings, rfl, run_alike h settings⟩
  · intro s hs
    refine ⟨?_, ?_⟩
    · intro body body' hbody hbody'
      exact Web.evaluate_alike hs.genuine h hbody hbody'
    · intro f hf
      have his : f.Is b := Services.gate_function_is hs.genuine hf
      exact (f.call_alike his h).symm

/-- A task under other names than the canonical ones, with an integer and a list. -/
def guarded : Value :=
  Value.ofNames
    [("executionsPerMonth", .int 5), ("standardization", .float 0.8),
     ("guardrails", .list [.str "limit"])]

theorem strict_agrees_with_lenient_guarded : ∃ input inputs,
    ofContext .automationCheck guarded = .ok input ∧
      Builtin.automationCheck.adapt guarded = .ok inputs ∧
      Builtin.automationCheck.adapt (.map input) = .ok inputs ∧
      ∃ s : Services, s.Reached ∧ ∀ f,
        (s.gate.function Builtin.automationCheck.id).value.1 = .ok f →
          f.call guarded = f.call (.map input) := by
  have haccepted : (ofContext .automationCheck guarded).toOption.isSome = true := by decide +kernel
  obtain ⟨input, h⟩ := isSome_toOption_iff.mp haccepted
  obtain ⟨⟨inputs, hadapt, hadapt'⟩, -, es, hes, -, hreached⟩ := strict_agrees_with_lenient h
  obtain ⟨s, hs, -⟩ := Services.exists_of_bareRun [] [] (fun _ => true) (by decide +kernel)
  have hstart : s.Reached := ⟨_, _, s, [], hs, rfl⟩
  exact ⟨input, inputs, h, hadapt, hadapt', s, hstart, (hreached s hstart).2⟩

end StrictInput

end DecisionGate
