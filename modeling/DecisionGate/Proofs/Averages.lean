import DecisionGate.Proofs.Rationals
import DecisionGate.Proofs.ScoreRange

/-!
# Scores as means

A coherence scan without a veto and an automation check with guardrails score the weighted mean of
three values. Without rounding the mean lies between the least and the greatest of the values as
soon as one weight is above zero. When all weights are zero the score is zero, and what a division
by zero would come to does not matter, because none is made. Of the weights only the proportion
counts: all of them times one positive number leave the score as it is, and with it everything that
the score is held against. Nothing is asked of the thresholds; they can be any numbers.
-/
namespace DecisionGate

open Arithmetic

/-- A number that is a mean of values under weights. -/
structure IsMean (values weights : List ℚ) (x : ℚ) : Prop where
  least : (∃ w ∈ weights, 0 < w) → values.minimum ≤ x
  greatest : (∃ w ∈ weights, 0 < w) → x ≤ values.maximum
  weightless : (∀ w ∈ weights, w = 0) → x = 0

section
variable {values weights : List ℚ}

theorem sum_pos_of_exists (hweights : ∀ w ∈ weights, 0 ≤ w) (hsome : ∃ w ∈ weights, 0 < w) :
    0 < weights.sum := by
  obtain ⟨w, hw, hpos⟩ := hsome
  exact hpos.trans_le (List.single_le_sum hweights w hw)

theorem isMean_mean (hlength : values.length = weights.length)
    (hweights : ∀ w ∈ weights, 0 ≤ w) : IsMean values weights (mean (values.zip weights)) := by
  have hsnd : (values.zip weights).map Prod.snd = weights := List.map_snd_zip hlength.ge
  have hnone : values = [] → ¬ ∃ w ∈ weights, 0 < w := by
    rintro rfl
    simp [List.length_eq_zero_iff.mp hlength.symm]
  constructor
  · intro hsome
    have hpos : 0 < ((values.zip weights).map Prod.snd).sum := by
      rw [hsnd]
      exact sum_pos_of_exists hweights hsome
    cases hleast : values.minimum with
    | top => exact absurd hsome (hnone (List.minimum_eq_top.mp hleast))
    | coe lo =>
      rw [WithTop.coe_le_coe]
      refine le_mean (fun p hp => ?_) (.inr hpos)
      obtain ⟨hvalue, hweight⟩ := List.of_mem_zip hp
      exact ⟨List.minimum_le_of_mem hvalue hleast, hweights _ hweight⟩
  · intro hsome
    have hpos : 0 < ((values.zip weights).map Prod.snd).sum := by
      rw [hsnd]
      exact sum_pos_of_exists hweights hsome
    cases hgreatest : values.maximum with
    | bot => exact absurd hsome (hnone (List.maximum_eq_bot.mp hgreatest))
    | coe hi =>
      rw [WithBot.coe_le_coe]
      refine mean_le (fun p hp => ?_) (.inr hpos)
      obtain ⟨hvalue, hweight⟩ := List.of_mem_zip hp
      exact ⟨List.le_maximum_of_mem hvalue hgreatest, hweights _ hweight⟩
  · intro hzero
    rw [mean, hsnd, if_pos (List.sum_eq_zero hzero).le]

/-- Only the proportion of the weights counts. -/
theorem mean_scale {m : ℚ} (hm : 0 < m) (parts : List (ℚ × ℚ)) :
    mean (parts.map (Prod.map id (m * ·))) = mean parts := by
  have hweights : ((parts.map (Prod.map id (m * ·))).map Prod.snd).sum =
      m * (parts.map Prod.snd).sum := by
    rw [List.map_map, ← List.sum_map_mul_left]
    rfl
  have hvalues : ((parts.map (Prod.map id (m * ·))).map fun p => p.1 * p.2).sum =
      m * (parts.map fun p => p.1 * p.2).sum := by
    rw [List.map_map, ← List.sum_map_mul_left]
    exact congrArg List.sum (List.map_congr_left fun p _ => mul_left_comm p.1 m p.2)
  unfold mean
  rw [hweights, hvalues]
  by_cases hnone : (parts.map Prod.snd).sum ≤ 0
  · rw [if_pos hnone, if_pos (mul_nonpos_of_nonneg_of_nonpos hm.le hnone)]
  · rw [if_neg hnone, if_neg (not_le.mpr (mul_pos hm (not_le.mp hnone))),
      mul_div_mul_left _ _ hm.ne']

end

/-- Weights that are finite numbers, none of them negative. -/
structure AreWeights (ws : List Exact) (weights : List ℚ) : Prop where
  eq_map : ws = weights.map .rational
  nonneg : ∀ w ∈ weights, 0 ≤ w

/-- All weights times one number. -/
def scaled (m : ℚ) (ws : List Exact) : List Exact := ws.map (Exact.rational m).mul

namespace AreWeights

variable {ws : List Exact} {weights : List ℚ} (h : AreWeights ws weights)
include h

theorem length_eq : ws.length = weights.length := by
  rw [h.eq_map, List.length_map]

theorem scaled {m : ℚ} (hm : 0 < m) : AreWeights (scaled m ws) (weights.map (m * ·)) where
  eq_map := by
    rw [h.eq_map, DecisionGate.scaled, List.map_map, List.map_map]
    rfl
  nonneg := by simpa using fun w hw => mul_nonneg hm.le (h.nonneg w hw)

theorem weightedMean (values : List ℚ) :
    weightedMean ((values.map Exact.rational).zip ws) =
      .ok (.rational (mean (values.zip weights))) := by
  rw [h.eq_map, List.zip_map]
  exact Exact.embeds_rational.weightedMean _

theorem weightedMean_scaled {m : ℚ} (hm : 0 < m) (values : List ℚ) :
    DecisionGate.weightedMean ((values.map Exact.rational).zip (DecisionGate.scaled m ws)) =
      DecisionGate.weightedMean ((values.map Exact.rational).zip ws) := by
  rw [h.weightedMean, (h.scaled hm).weightedMean, List.zip_map_right, mean_scale hm]

end AreWeights

namespace Exact

/-- Arithmetic without rounding, with any outcome of a division by zero. -/
abbrev dividing (byZero : Exact → Except Fault Exact) : Arithmetic Exact :=
  { instArithmeticExact with
    div := fun a b => if b = .rational 0 then byZero a else .ok (a.div b) }

section
variable (byZero : Exact → Except Fault Exact)

theorem weightedMean_dividing (parts : List (Exact × Exact)) :
    @weightedMean Exact (dividing byZero) parts = weightedMean parts := by
  obtain ⟨w, hw, -⟩ := gives_total_exact (parts.map Prod.snd)
  have hw' : @total Exact (dividing byZero) (parts.map Prod.snd) = .ok w := hw
  unfold weightedMean
  rw [hw, hw', ok_bind, ok_bind]
  by_cases hzero : w = .rational 0
  · subst hzero
    rfl
  · have hdiv : ∀ a, @Arithmetic.div Exact (dividing byZero) a w = Arithmetic.div a w :=
      fun a => if_neg hzero
    simp only [hdiv]
    rfl

theorem normalize_dividing (frequency : Exact) :
    @Automation.normalize Exact (dividing byZero) frequency = Automation.normalize frequency := by
  have htwenty : (20.0 : Exact) ≠ .rational 0 := by
    show Exact.rational _ ≠ .rational 0
    norm_num
  have hdiv : @Arithmetic.div Exact (dividing byZero) frequency
      (@OfScientific.ofScientific Exact (dividing byZero).toOfScientific 200 true 1) =
        Arithmetic.div frequency 20.0 := if_neg htwenty
  unfold Automation.normalize
  rw [hdiv]
  rfl

theorem coherence_assess_dividing (s : Coherence.Settings Exact) (t a k : Exact) :
    @Coherence.assess Exact (dividing byZero) s t a k = Coherence.assess s t a k := by
  unfold Coherence.assess
  simp only [weightedMean_dividing]
  rfl

theorem automation_assess_dividing (s : Automation.Settings Exact) (f st : Exact) (g : Bool) :
    @Automation.assess Exact (dividing byZero) s f st g = Automation.assess s f st g := by
  unfold Automation.assess
  simp only [weightedMean_dividing, normalize_dividing]
  rfl

end
end Exact

namespace Coherence

variable {α : Type} {s s' : Settings α} {t a k : α} {o o' : Outcome α}

def Settings.weights (s : Settings α) : List α :=
  [s.truthfulnessWeight, s.systemWeight, s.skillWeight]

def Settings.SameThresholds (s s' : Settings α) : Prop :=
  s.veto = s'.veto ∧ s.approve = s'.approve ∧ s.review = s'.review

/-- Two outcomes with the same veto, score and recommendation. -/
structure Outcome.Agrees [Arithmetic α] (o o' : Outcome α) : Prop where
  vetoed : o = .vetoed ↔ o' = .vetoed
  score : o.score = o'.score
  recommendation : o.recommendation = o'.recommendation

variable [Arithmetic α]

/-- Of the weights only the mean matters to a scan. -/
theorem agrees_of_weightedMean (hthresholds : s.SameThresholds s')
    (hmean : weightedMean ([t, a, k].zip s'.weights) = weightedMean ([t, a, k].zip s.weights))
    (ho : assess s t a k = .ok o) (ho' : assess s' t a k = .ok o') : o.Agrees o' := by
  obtain ⟨hveto, happrove, hreview⟩ := hthresholds
  rcases assess_split ho with ⟨hlow, rfl⟩ | ⟨hlow, c, rfl, hscore, hrecommendation⟩
  · rcases assess_split ho' with ⟨-, rfl⟩ | ⟨hlow', -⟩
    · exact ⟨Iff.rfl, rfl, rfl⟩
    · cases hlow.symm.trans (hveto ▸ hlow')
  · rcases assess_split ho' with ⟨hlow', -⟩ | ⟨-, c', rfl, hscore', hrecommendation'⟩
    · cases hlow.symm.trans (hveto ▸ hlow')
    · have hsame : c.score = c'.score :=
        Except.ok.inj (hscore.symm.trans (hmean.symm.trans hscore'))
      have hladder : recommendationOf s' = recommendationOf s := by
        unfold recommendationOf
        rw [happrove, hreview]
      rw [hladder, ← hsame] at hrecommendation'
      exact ⟨by simp, hsame, Except.ok.inj (hrecommendation.symm.trans hrecommendation')⟩

theorem exists_assess_exact (s : Settings Exact) (t a k : Exact) :
    ∃ o, assess s t a k = .ok o := by
  obtain ⟨o, ho, -⟩ : Gives (assess s t a k) fun _ => True :=
    tame_exact.coherence_assess ⟨trivial, trivial, trivial⟩ (gives_total_exact _)
      ⟨trivial, trivial, trivial⟩ trivial trivial trivial
  exact ⟨o, ho⟩

end Coherence

namespace Automation

variable {α : Type} {s s' : Settings α} {f st : α} {c c' : Check α}

def Settings.weights (s : Settings α) : List α :=
  [s.frequencyWeight, s.standardizationWeight, s.guardrailsWeight]

def Settings.SameThresholds (s s' : Settings α) : Prop :=
  s.tippingPoint = s'.tippingPoint ∧ s.standardization = s'.standardization ∧
    s.automate = s'.automate

/-- Two checks with the same score and recommendation. -/
structure Check.Agrees (c c' : Check α) : Prop where
  score : c.score = c'.score
  recommendation : c.recommendation = c'.recommendation

variable [Arithmetic α]

/-- Of the weights only the mean matters to a check. -/
theorem agrees_of_weightedMean (hthresholds : s.SameThresholds s')
    (hmean : weightedMean ([c.normalizedFrequency, st, 1.0].zip s'.weights) =
      weightedMean ([c.normalizedFrequency, st, 1.0].zip s.weights))
    (hc : assess s f st true = .ok (.checked c)) (hc' : assess s' f st true = .ok (.checked c')) :
    c.Agrees c' := by
  obtain ⟨htipping, hstandardization, hautomate⟩ := hthresholds
  rcases assess_split hc with
    ⟨hnone, -⟩ | ⟨-, d, hd, htip, hnormalized, hscore, hready, hrecommendation⟩
  · cases hnone
  rcases assess_split hc' with
    ⟨hnone, -⟩ | ⟨-, d', hd', htip', hnormalized', hscore', hready', hrecommendation'⟩
  · cases hnone
  obtain rfl := Outcome.checked.inj hd
  obtain rfl := Outcome.checked.inj hd'
  -- The two checks go through the same steps; each gives what the next one starts from.
  have hsameFrequency : c'.normalizedFrequency = c.normalizedFrequency :=
    Except.ok.inj (hnormalized'.symm.trans hnormalized)
  have hsameScore : c.score = c'.score := by
    rw [hsameFrequency] at hscore'
    exact Except.ok.inj (hscore.symm.trans (hmean.symm.trans hscore'))
  have hsameTip : c'.tippingPoint = c.tippingPoint := by
    rw [← htipping] at htip'
    exact Except.ok.inj (htip'.symm.trans htip)
  have hsameReady : c'.ready = c.ready := by
    rw [hsameTip, ← hstandardization] at hready'
    exact Except.ok.inj (hready'.symm.trans hready)
  have hladder : recommendationOf s' = recommendationOf s := by
    unfold recommendationOf
    rw [hstandardization, hautomate]
  rw [hladder, ← hsameScore, hsameTip, hsameReady] at hrecommendation'
  exact ⟨hsameScore, Except.ok.inj (hrecommendation.symm.trans hrecommendation')⟩

theorem one_exact : (1.0 : Exact) = .rational 1 := by
  show Exact.rational _ = _
  norm_num

theorem exists_check_exact (s : Settings Exact) (f st : Exact) :
    ∃ c, assess s f st true = .ok (.checked c) := by
  obtain ⟨o, ho, -⟩ : Gives (assess s f st true) fun _ => True :=
    tame_exact.automation_assess ⟨trivial, trivial, trivial⟩ (gives_total_exact _)
      ⟨trivial, trivial, trivial⟩ trivial trivial true
  rcases assess_cases ho with ⟨hnone, -⟩ | ⟨-, c, rfl, -, -⟩
  · cases hnone
  · exact ⟨c, ho⟩

end Automation

/-- What a number stands for; truth values count as one and zero. -/
def Value.exact? (v : Value) : Option Exact := v.number?.map Exact.ofNumber

/-- A context whose inputs to a scan are these numbers. -/
def Coherence.Given (context : Value) (t a k : ℚ) : Prop :=
  ∃ i, CoherenceInput.ofContext context = .ok i ∧ Exact.ofDouble i.truthfulness = .rational t ∧
    Exact.ofDouble i.systemAdherence = .rational a ∧ Exact.ofDouble i.skill = .rational k

/-- A context with guardrails whose inputs to a check are these numbers. The frequency can be
infinite. -/
def Automation.Given (context : Value) (f : Exact) (st : ℚ) : Prop :=
  ∃ i, AutomationInput.ofContext context = .ok i ∧ i.hasGuardrails = true ∧
    IsCount i.frequency ∧ Exact.ofDouble i.frequency = f ∧
    Exact.ofDouble i.standardizable = .rational st

/-- Under every section of numbers, with finite weights of which none is negative, and for every
context in range, both heuristics come to an answer without any division by zero. The score of a
scan that is not vetoed and of a check with guardrails is a mean of the three values under the three
weights, a frequency counting as a number between zero and one. The same weights on another scale
give the same score and recommendation. -/
theorem scores_are_means (config : Entries) (context : Value) (weights : List ℚ) :
    (∀ (s : Coherence.Settings Exact) (t a k : ℚ),
      (Coherence.settings config).map Value.exact? = s.map some → AreWeights s.weights weights →
      Coherence.Given context t a k →
      ∃ o, (∀ byZero, @Coherence.assess Exact (Exact.dividing byZero) s (.rational t) (.rational a)
          (.rational k) = .ok o) ∧
        (∀ c, o = .scanned c → ∃ x, c.score = .rational x ∧ IsMean [t, a, k] weights x) ∧
        ∀ m > 0, ∀ s', s'.weights = scaled m s.weights → s.SameThresholds s' →
          ∃ o', Coherence.assess s' (.rational t) (.rational a) (.rational k) = .ok o' ∧
            o.Agrees o') ∧
    (∀ (s : Automation.Settings Exact) (f : Exact) (st : ℚ),
      (Automation.settings config).map Value.exact? = s.map some → AreWeights s.weights weights →
      Automation.Given context f st →
      ∃ c n x, (∀ byZero, @Automation.assess Exact (Exact.dividing byZero) s f (.rational st)
          true = .ok (.checked c)) ∧
        c.normalizedFrequency = .rational n ∧ Exact.IsUnit n ∧
        c.score = .rational x ∧ IsMean [n, st, 1] weights x ∧
        ∀ m > 0, ∀ s', s'.weights = scaled m s.weights → s.SameThresholds s' →
          ∃ c', Automation.assess s' f (.rational st) true = .ok (.checked c') ∧ c.Agrees c') := by
  constructor
  · intro s t a k _ hweights _
    obtain ⟨o, ho⟩ := Coherence.exists_assess_exact s (.rational t) (.rational a) (.rational k)
    refine ⟨o, fun byZero => ?_, ?_, fun m hm s' hscaled hthresholds => ?_⟩
    · rw [Exact.coherence_assess_dividing, ho]
    · rintro c rfl
      obtain ⟨-, hvetoed⟩ | ⟨-, c', hc', hscore, -⟩ := Coherence.assess_split ho
      · cases hvetoed
      obtain rfl := Coherence.Outcome.scanned.inj hc'
      have hmean := hweights.weightedMean [t, a, k]
      exact ⟨_, (Except.ok.inj (hmean.symm.trans hscore)).symm,
        isMean_mean hweights.length_eq hweights.nonneg⟩
    · obtain ⟨o', ho'⟩ :=
        Coherence.exists_assess_exact s' (.rational t) (.rational a) (.rational k)
      refine ⟨o', ho', Coherence.agrees_of_weightedMean hthresholds ?_ ho ho'⟩
      rw [hscaled]
      exact hweights.weightedMean_scaled hm [t, a, k]
  · intro s f st _ hweights hgiven
    obtain ⟨i, -, -, hcount, hf, -⟩ := hgiven
    rw [IsCount, hf] at hcount
    obtain ⟨c, hc⟩ := Automation.exists_check_exact s f (.rational st)
    obtain ⟨hnone, -⟩ | ⟨-, c', hc', hnormalized, hscore⟩ := Automation.assess_cases hc
    · cases hnone
    obtain rfl := Automation.Outcome.checked.inj hc'
    obtain ⟨n, hn, hunit⟩ := Exact.normalize_isUnit hcount hnormalized
    have hvalues : [c.normalizedFrequency, .rational st, 1.0] = [n, st, 1].map Exact.rational := by
      rw [hn, Automation.one_exact]
      rfl
    refine ⟨c, n, _, fun byZero => ?_, hn, hunit, ?_, isMean_mean hweights.length_eq
      hweights.nonneg, fun m hm s' hscaled hthresholds => ?_⟩
    · rw [Exact.automation_assess_dividing, hc]
    · have hmean := hweights.weightedMean [n, st, 1]
      rw [← hvalues] at hmean
      exact (Except.ok.inj (hmean.symm.trans hscore)).symm
    · obtain ⟨d, hd⟩ := Automation.exists_check_exact s' f (.rational st)
      refine ⟨d, hd, Automation.agrees_of_weightedMean hthresholds ?_ hc hd⟩
      rw [hscaled, hvalues]
      exact hweights.weightedMean_scaled hm [n, st, 1]

/-- Parameters of both heuristics in whole numbers, one weight of each being zero. -/
def wholeNumbers : Entries :=
  Entries.ofNames
    [("weights", Value.ofNames
      [("truthfulness", .int 2), ("system_adherence", .int 1), ("skill", .int 0),
       ("frequency", .int 2), ("standardization", .int 1), ("guardrails", .int 0)]),
     ("thresholds", Value.ofNames
      [("veto", .int 1), ("approve", .int 1), ("review", .int 0), ("tipping_point", .int 2),
       ("standardization", .int 0), ("automate", .int 1)])]

/-- What the whole numbers are to a scan. -/
def wholeScan : Coherence.Settings Exact :=
  ⟨.rational 2, .rational 1, .rational 0, .rational 1, .rational 1, .rational 0⟩

/-- What the whole numbers are to a check. -/
def wholeCheck : Automation.Settings Exact :=
  ⟨.rational 2, .rational 1, .rational 0, .rational 2, .rational 0, .rational 1⟩

/-- A person and a task in one. -/
def halfway : Value :=
  Value.ofNames
    [("truthfulness", .float 1.0), ("system_adherence", .float 0.5), ("skill", .float 0.5),
     ("frequency", .float 1.0), ("standardizable", .float 0.5), ("has_guardrails", .bool true)]

/-- The whole numbers, and the same with weights that are three times as large. -/
theorem scores_are_means_halfway :
    (Coherence.Given halfway 1 (1 / 2) (1 / 2) ∧ ∃ c x o,
      Coherence.assess wholeScan (.rational 1) (.rational (1 / 2)) (.rational (1 / 2)) =
        .ok (.scanned c) ∧
      c.score = .rational x ∧ IsMean [1, 1 / 2, 1 / 2] [2, 1, 0] x ∧
      Coherence.assess ⟨.rational 6, .rational 3, .rational 0, .rational 1, .rational 1,
        .rational 0⟩ (.rational 1) (.rational (1 / 2)) (.rational (1 / 2)) = .ok o ∧
      (Coherence.Outcome.scanned c).Agrees o) ∧
    (Automation.Given halfway (.rational 1) (1 / 2) ∧ ∃ c n x c',
      Automation.assess wholeCheck (.rational 1) (.rational (1 / 2)) true = .ok (.checked c) ∧
      c.normalizedFrequency = .rational n ∧ c.score = .rational x ∧
      IsMean [n, 1 / 2, 1] [2, 1, 0] x ∧
      Automation.assess ⟨.rational 6, .rational 3, .rational 0, .rational 2, .rational 0,
        .rational 1⟩ (.rational 1) (.rational (1 / 2)) true = .ok (.checked c') ∧
      c.Agrees c') := by
  have hscan : Coherence.Given halfway 1 (1 / 2) (1 / 2) :=
    ⟨⟨1.0, 0.5, 0.5⟩, by rfl, Exact.ofDouble_one, Exact.ofDouble_half, Exact.ofDouble_half⟩
  have hcheck : Automation.Given halfway (.rational 1) (1 / 2) :=
    ⟨⟨1.0, 0.5, true⟩, by rfl, rfl, .inr ⟨1, Exact.ofDouble_one, zero_le_one⟩,
      Exact.ofDouble_one, Exact.ofDouble_half⟩
  have hthrice : [Exact.rational 6, .rational 3, .rational 0] =
      scaled 3 [.rational 2, .rational 1, .rational 0] := by
    norm_num [scaled, Exact.mul]
  obtain ⟨hcoherence, hautomation⟩ := scores_are_means wholeNumbers halfway [2, 1, 0]
  refine ⟨⟨hscan, ?_⟩, hcheck, ?_⟩
  · obtain ⟨o, ho, hmean, hscale⟩ := hcoherence wholeScan 1 (1 / 2) (1 / 2) (by rfl)
      ⟨rfl, by norm_num⟩ hscan
    have ho := (Exact.coherence_assess_dividing .ok _ _ _ _).symm.trans (ho .ok)
    obtain ⟨o', ho', hagrees⟩ := hscale 3 three_pos
      ⟨.rational 6, .rational 3, .rational 0, .rational 1, .rational 1, .rational 0⟩ hthrice
      ⟨rfl, rfl, rfl⟩
    rcases Coherence.assess_split ho with ⟨hlow, -⟩ | ⟨-, c, rfl, -⟩
    · exact absurd (Except.ok.inj hlow) (by decide)
    · obtain ⟨x, hx, hbetween⟩ := hmean c rfl
      exact ⟨c, x, o', ho, hx, hbetween, ho', hagrees⟩
  · obtain ⟨c, n, x, hc, hn, -, hx, hbetween, hscale⟩ := hautomation wholeCheck (.rational 1)
      (1 / 2) (by rfl) ⟨rfl, by norm_num⟩ hcheck
    have hc := (Exact.automation_assess_dividing .ok _ _ _ _).symm.trans (hc .ok)
    obtain ⟨c', hc', hagrees⟩ := hscale 3 three_pos
      ⟨.rational 6, .rational 3, .rational 0, .rational 2, .rational 0, .rational 1⟩ hthrice
      ⟨rfl, rfl, rfl⟩
    exact ⟨c, n, x, c', hc, hn, hx, hbetween, hc', hagrees⟩

end DecisionGate
