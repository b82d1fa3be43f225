import DecisionGate.Heuristic.Decision
import DecisionGate.Proofs.Results

/-!
# Assessments

The scoring rules are one text for every arithmetic. This module says what an assessment consists
of, and that it comes to an end in every arithmetic that does not fail on its numbers, once the
weights have a sum.
-/
namespace DecisionGate

open Arithmetic

section
variable {α : Type} [Arithmetic α]

theorem BackCasting.assess_score {s : BackCasting.Settings α} {clarity alignment : α}
    {o : BackCasting.Outcome α} (h : BackCasting.assess s clarity alignment = .ok o) :
    ∃ e m, mul clarity s.endStateWeight = .ok e ∧ mul alignment s.marketWeight = .ok m ∧
      add e m = .ok o.score := by
  obtain ⟨e, he, hrest⟩ := bind_eq_ok.mp h
  obtain ⟨m, hm, hrest⟩ := bind_eq_ok.mp hrest
  obtain ⟨score, hscore, hrest⟩ := bind_eq_ok.mp hrest
  obtain ⟨_, -, hrest⟩ := bind_eq_ok.mp hrest
  obtain ⟨_, -, hrest⟩ := bind_eq_ok.mp hrest
  obtain ⟨_, -, hrest⟩ := bind_eq_ok.mp hrest
  obtain ⟨_, -, hrest⟩ := bind_eq_ok.mp hrest
  obtain rfl := Except.ok.inj hrest
  exact ⟨e, m, he, hm, hscore⟩

/-- A scan ends in a veto when the truthfulness is below its threshold, and in a weighted mean and
what is recommended for it when it is not. -/
theorem Coherence.assess_split {s : Coherence.Settings α} {truthfulness system skill : α}
    {o : Coherence.Outcome α} (h : Coherence.assess s truthfulness system skill = .ok o) :
    (compare .lt truthfulness s.veto = .ok true ∧ o = .vetoed) ∨
      (compare .lt truthfulness s.veto = .ok false ∧ ∃ c, o = .scanned c ∧
        weightedMean [(truthfulness, s.truthfulnessWeight), (system, s.systemWeight),
          (skill, s.skillWeight)] = .ok c.score ∧
        Coherence.recommendationOf s c.score = .ok c.recommendation) := by
  obtain ⟨r, hr, hrest⟩ := bind_eq_ok.mp h
  cases r with
  | true => exact .inl ⟨hr, (Except.ok.inj hrest).symm⟩
  | false =>
    obtain ⟨score, hscore, hrest⟩ := bind_eq_ok.mp hrest
    obtain ⟨_, hrecommendation, hrest⟩ := bind_eq_ok.mp hrest
    obtain ⟨_, -, hrest⟩ := bind_eq_ok.mp hrest
    obtain ⟨_, -, hrest⟩ := bind_eq_ok.mp hrest
    obtain ⟨_, -, hrest⟩ := bind_eq_ok.mp hrest
    obtain ⟨_, -, hrest⟩ := bind_eq_ok.mp hrest
    obtain ⟨_, -, hrest⟩ := bind_eq_ok.mp hrest
    exact .inr ⟨hr, _, (Except.ok.inj hrest).symm, hscore, hrecommendation⟩

theorem Coherence.assess_cases {s : Coherence.Settings α} {truthfulness system skill : α}
    {o : Coherence.Outcome α} (h : Coherence.assess s truthfulness system skill = .ok o) :
    o = .vetoed ∨ ∃ c, o = .scanned c ∧ weightedMean [(truthfulness, s.truthfulnessWeight),
      (system, s.systemWeight), (skill, s.skillWeight)] = .ok c.score := by
  rcases Coherence.assess_split h with ⟨-, hvetoed⟩ | ⟨-, c, hscanned, hscore, -⟩
  · exact .inl hvetoed
  · exact .inr ⟨c, hscanned, hscore⟩

/-- A check ends in a veto when there are no guardrails. When there are, it ends in a weighted mean
and in what is recommended for it; the readiness is looked at beyond the tipping point only. -/
theorem Automation.assess_split {s : Automation.Settings α} {frequency standardizable : α}
    {hasGuardrails : Bool} {o : Automation.Outcome α}
    (h : Automation.assess s frequency standardizable hasGuardrails = .ok o) :
    (hasGuardrails = false ∧ ∃ tippingPoint, o = .vetoed tippingPoint) ∨
      (hasGuardrails = true ∧ ∃ c, o = .checked c ∧
        compare .gt frequency s.tippingPoint = .ok c.tippingPoint ∧
        normalize frequency = .ok c.normalizedFrequency ∧
        weightedMean [(c.normalizedFrequency, s.frequencyWeight),
          (standardizable, s.standardizationWeight), (1.0, s.guardrailsWeight)] = .ok c.score ∧
        (if c.tippingPoint then compare .ge standardizable s.standardization else .ok false) =
          .ok c.ready ∧
        recommendationOf s c.score standardizable c.tippingPoint c.ready =
          .ok c.recommendation) := by
  obtain ⟨tippingPoint, htipping, hrest⟩ := bind_eq_ok.mp h
  cases hasGuardrails with
  | false => exact .inl ⟨rfl, tippingPoint, (Except.ok.inj hrest).symm⟩
  | true =>
    obtain ⟨x, hx, hrest⟩ := bind_eq_ok.mp hrest
    obtain ⟨score, hscore, hrest⟩ := bind_eq_ok.mp hrest
    right
    cases tippingPoint
    all_goals
      obtain ⟨ready, hready, hrest⟩ := bind_eq_ok.mp hrest
      obtain ⟨_, hrecommendation, hrest⟩ := bind_eq_ok.mp hrest
      obtain ⟨_, -, hrest⟩ := bind_eq_ok.mp hrest
      obtain ⟨_, -, hrest⟩ := bind_eq_ok.mp hrest
      obtain ⟨_, -, hrest⟩ := bind_eq_ok.mp hrest
      obtain ⟨_, -, hrest⟩ := bind_eq_ok.mp hrest
      exact ⟨rfl, _, (Except.ok.inj hrest).symm, htipping, hx, hscore, hready, hrecommendation⟩

theorem Automation.assess_cases {s : Automation.Settings α} {frequency standardizable : α}
    {hasGuardrails : Bool} {o : Automation.Outcome α}
    (h : Automation.assess s frequency standardizable hasGuardrails = .ok o) :
    (hasGuardrails = false ∧ ∃ tippingPoint, o = .vetoed tippingPoint) ∨
      (hasGuardrails = true ∧ ∃ c, o = .checked c ∧
        normalize frequency = .ok c.normalizedFrequency ∧
        weightedMean [(c.normalizedFrequency, s.frequencyWeight),
          (standardizable, s.standardizationWeight), (1.0, s.guardrailsWeight)] =
            .ok c.score) := by
  rcases Automation.assess_split h with hvetoed | ⟨hguardrails, c, hc, -, hx, hscore, -, -⟩
  · exact .inl hvetoed
  · exact .inr ⟨hguardrails, c, hc, hx, hscore⟩

end

/-- An arithmetic that does not fail on its numbers. A double times a number is a double again, as
is a double divided by a number. -/
structure Tame {α : Type} [Arithmetic α] (number double : α → Prop) : Prop where
  number_zero : number zero
  of_double : ∀ {a}, double a → number a
  literal : ∀ m s e, double (OfScientific.ofScientific m s e)
  compare : ∀ c {a b}, number a → number b → Gives (compare c a b) fun _ => True
  mul : ∀ {a b}, double a → number b → Gives (mul a b) double
  mul_double : ∀ {a b}, number a → double b → Gives (Arithmetic.mul a b) double
  add : ∀ {a b}, double a → double b → Gives (add a b) double
  zero_add : ∀ {a}, double a → Gives (Arithmetic.add zero a) double
  div : ∀ {a b}, double a → number b → Gives (div a b) double

namespace Tame

variable {α : Type} [Arithmetic α] {number double : α → Prop} (h : Tame number double)
include h

theorem weightedSum_from {a : α} (ha : double a) {parts : List (α × α)}
    (hparts : ∀ p ∈ parts, double p.1 ∧ number p.2) :
    Gives (parts.foldlM (fun acc p => do Arithmetic.add acc (← Arithmetic.mul p.1 p.2)) a)
      double := by
  induction parts generalizing a with
  | nil => exact gives_ok ha
  | cons p parts ih =>
    obtain ⟨hp, hrest⟩ := List.forall_mem_cons.mp hparts
    rw [List.foldlM_cons]
    refine Gives.bind ?_ fun a' ha' => ih ha' hrest
    exact (h.mul hp.1 hp.2).bind fun b hb => h.add ha hb

theorem weightedSum {p : α × α} {parts : List (α × α)}
    (hparts : ∀ q ∈ p :: parts, double q.1 ∧ number q.2) :
    Gives (weightedSum (p :: parts)) double := by
  obtain ⟨hp, hrest⟩ := List.forall_mem_cons.mp hparts
  rw [DecisionGate.weightedSum, List.foldlM_cons]
  refine Gives.bind ?_ fun a ha => h.weightedSum_from ha hrest
  exact (h.mul hp.1 hp.2).bind fun b hb => h.zero_add hb

theorem weightedMean {p : α × α} {parts : List (α × α)}
    (hparts : ∀ q ∈ p :: parts, double q.1 ∧ number q.2)
    (htotal : Gives (total ((p :: parts).map Prod.snd)) number) :
    Gives (weightedMean (p :: parts)) double := by
  refine htotal.bind fun w hw => (h.compare .le hw h.number_zero).bind fun r _ => ?_
  cases r with
  | true => exact gives_ok (h.literal _ _ _)
  | false => exact (h.weightedSum hparts).bind fun s hs => h.div hs hw

section
variable {s : BackCasting.Settings α}

theorem priorityOf {threshold score : α} (ht : number threshold) (hs : double score) :
    Gives (BackCasting.priorityOf threshold score) fun _ => True := by
  refine (h.compare .ge (h.of_double hs) ht).bind fun r _ => ?_
  cases r with
  | true => exact gives_ok trivial
  | false =>
    refine (h.mul_double ht (h.literal _ _ _)).bind fun m hm => ?_
    refine (h.compare .ge (h.of_double hs) (h.of_double hm)).bind fun r _ => ?_
    cases r <;> exact gives_ok trivial

theorem confidenceOf {threshold clarity : α} (ht : number threshold) (hc : double clarity) :
    Gives (BackCasting.confidenceOf threshold clarity) fun _ => True := by
  refine (h.compare .ge (h.of_double hc) ht).bind fun r _ => ?_
  cases r with
  | true => exact gives_ok trivial
  | false =>
    refine (h.compare .ge (h.of_double hc) (h.of_double (h.literal _ _ _))).bind fun r _ => ?_
    cases r <;> exact gives_ok trivial

theorem backCasting_recommendationOf {threshold score : α} (ht : number threshold)
    (hs : double score) (c : Confidence) :
    Gives (BackCasting.recommendationOf threshold score c) fun _ => True := by
  refine (h.compare .ge (h.of_double hs) ht).bind fun reached _ => ?_
  split
  · exact gives_ok trivial
  · refine (h.compare .lt (h.of_double hs) (h.of_double (h.literal _ _ _))).bind fun r _ => ?_
    cases r <;> exact gives_ok trivial

theorem backCasting_assess (hweights : number s.endStateWeight ∧ number s.marketWeight)
    (hthresholds : number s.confidence ∧ number s.priority) {clarity alignment : α}
    (hc : double clarity) (ha : double alignment) :
    Gives (BackCasting.assess s clarity alignment) fun _ => True := by
  refine (h.mul hc hweights.1).bind fun endState he => ?_
  refine (h.mul ha hweights.2).bind fun market hm => ?_
  refine (h.add he hm).bind fun score hs => ?_
  refine (h.priorityOf hthresholds.2 hs).bind fun _ _ => ?_
  refine (h.confidenceOf hthresholds.1 hc).bind fun c _ => ?_
  refine (h.backCasting_recommendationOf hthresholds.2 hs c).bind fun _ _ => ?_
  exact (h.compare .ge (h.of_double hs) hthresholds.1).bind fun _ _ => gives_ok trivial

end

section
variable {s : Coherence.Settings α}

theorem coherence_recommendationOf (happrove : number s.approve) (hreview : number s.review)
    {score : α} (hs : double score) :
    Gives (Coherence.recommendationOf s score) fun _ => True := by
  refine (h.compare .ge (h.of_double hs) happrove).bind fun r _ => ?_
  cases r with
  | true => exact gives_ok trivial
  | false =>
    refine (h.compare .ge (h.of_double hs) hreview).bind fun r _ => ?_
    cases r <;> exact gives_ok trivial

/-- A comparison with a fixed cut-off. -/
theorem cutOff (c : Comparison) {a : α} (ha : double a) (m : Nat) (e : Bool) (n : Nat) :
    Gives (Arithmetic.compare c a (OfScientific.ofScientific m e n)) fun _ => True :=
  h.compare c (h.of_double ha) (h.of_double (h.literal m e n))

theorem rankOf {score : α} (hs : double score) : Gives (Coherence.rankOf score) fun _ => True := by
  refine (h.cutOff .ge hs _ _ _).bind fun r _ => ?_
  cases r with
  | true => exact gives_ok trivial
  | false =>
    refine (h.cutOff .ge hs _ _ _).bind fun r _ => ?_
    cases r with
    | true => exact gives_ok trivial
    | false =>
      refine (h.cutOff .ge hs _ _ _).bind fun r _ => ?_
      cases r <;> exact gives_ok trivial

theorem factorsOf {truthfulness system skill : α} (ht : double truthfulness)
    (hsystem : double system) (hskill : double skill) :
    Gives (Coherence.factorsOf truthfulness system skill) fun _ => True := by
  refine (h.cutOff .ge ht _ _ _).bind fun truthful _ => ?_
  refine (h.cutOff .ge hsystem _ _ _).bind fun fits _ => ?_
  cases fits with
  | true => exact (h.cutOff .ge hskill _ _ _).bind fun skilled _ => gives_ok trivial
  | false =>
    refine (h.cutOff .lt hsystem _ _ _).bind fun unfit _ => ?_
    exact (h.cutOff .ge hskill _ _ _).bind fun skilled _ => gives_ok trivial

theorem coherence_assess
    (hweights : number s.truthfulnessWeight ∧ number s.systemWeight ∧ number s.skillWeight)
    (htotal : Gives (total [s.truthfulnessWeight, s.systemWeight, s.skillWeight]) number)
    (hthresholds : number s.veto ∧ number s.approve ∧ number s.review)
    {truthfulness system skill : α} (ht : double truthfulness) (hsystem : double system)
    (hskill : double skill) :
    Gives (Coherence.assess s truthfulness system skill) fun _ => True := by
  refine (h.compare .lt (h.of_double ht) hthresholds.1).bind fun r _ => ?_
  cases r with
  | true => exact gives_ok trivial
  | false =>
    have hmean : Gives (DecisionGate.weightedMean [(truthfulness, s.truthfulnessWeight),
        (system, s.systemWeight), (skill, s.skillWeight)]) double :=
      h.weightedMean (by simp [ht, hsystem, hskill, hweights]) htotal
    refine hmean.bind fun score hs => ?_
    refine (h.coherence_recommendationOf hthresholds.2.1 hthresholds.2.2 hs).bind fun _ _ => ?_
    refine (h.factorsOf ht hsystem hskill).bind fun _ _ => ?_
    refine (h.mul ht hweights.1).bind fun _ _ => ?_
    refine (h.mul hsystem hweights.2.1).bind fun _ _ => ?_
    refine (h.mul hskill hweights.2.2).bind fun _ _ => ?_
    exact (h.rankOf hs).bind fun _ _ => gives_ok trivial

end

section
variable {s : Automation.Settings α}

theorem normalize {frequency : α} (hf : double frequency) :
    Gives (Automation.normalize frequency) double := by
  refine (h.div hf (h.of_double (h.literal _ _ _))).bind fun x hx => ?_
  refine (h.compare .lt (h.of_double (h.literal _ _ _)) (h.of_double hx)).bind fun r _ => ?_
  cases r with
  | true => exact gives_ok (h.literal _ _ _)
  | false => exact gives_ok hx

theorem automation_recommendationOf (hautomate : number s.automate)
    (hstandardization : number s.standardization) {score standardizable : α} (hs : double score)
    (hst : double standardizable) (tippingPoint ready : Bool) :
    Gives (Automation.recommendationOf s score standardizable tippingPoint ready)
      fun _ => True := by
  refine (h.compare .ge (h.of_double hs) hautomate).bind fun automate _ => ?_
  split
  · exact gives_ok trivial
  · refine (h.cutOff .ge hs _ _ _).bind fun plan _ => ?_
    split
    · exact gives_ok trivial
    · split
      · refine (h.compare .lt (h.of_double hst) hstandardization).bind fun r _ => ?_
        cases r <;> exact gives_ok trivial
      · exact gives_ok trivial

theorem effortOf {standardizable : α} (hst : double standardizable) :
    Gives (Automation.effortOf standardizable) fun _ => True := by
  refine (h.cutOff .ge hst _ _ _).bind fun r _ => ?_
  cases r with
  | true => exact gives_ok trivial
  | false =>
    refine (h.cutOff .ge hst _ _ _).bind fun r _ => ?_
    cases r <;> exact gives_ok trivial

theorem automation_assess
    (hweights : number s.frequencyWeight ∧ number s.standardizationWeight ∧
      number s.guardrailsWeight)
    (htotal : Gives (total [s.frequencyWeight, s.standardizationWeight, s.guardrailsWeight])
      number)
    (hthresholds : number s.tippingPoint ∧ number s.standardization ∧ number s.automate)
    {frequency standardizable : α} (hf : double frequency) (hst : double standardizable)
    (hasGuardrails : Bool) :
    Gives (Automation.assess s frequency standardizable hasGuardrails) fun _ => True := by
  refine (h.compare .gt (h.of_double hf) hthresholds.1).bind fun tippingPoint _ => ?_
  cases hasGuardrails with
  | false => exact gives_ok trivial
  | true =>
    refine (h.normalize hf).bind fun normalized hn => ?_
    have hmean : Gives (DecisionGate.weightedMean [(normalized, s.frequencyWeight),
        (standardizable, s.standardizationWeight), (1.0, s.guardrailsWeight)]) double :=
      h.weightedMean (by simp [hn, hst, h.literal, hweights]) htotal
    refine hmean.bind fun score hs => ?_
    cases tippingPoint
    case' true => refine (h.compare .ge (h.of_double hst) hthresholds.2.1).bind fun ready _ => ?_
    all_goals
      refine (h.automation_recommendationOf hthresholds.2.2 hthresholds.2.1 hs hst _ _).bind
        fun _ _ => ?_
      refine (h.effortOf hst).bind fun _ _ => ?_
      refine (h.mul hn hweights.1).bind fun _ _ => ?_
      refine (h.mul hst hweights.2.1).bind fun _ _ => ?_
      exact (h.mul hf (h.of_double (h.literal _ _ _))).bind fun _ _ => gives_ok trivial

end

end Tame

end DecisionGate
