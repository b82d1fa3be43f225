import DecisionGate.Proofs.ExactScore
import DecisionGate.Proofs.Parameters

/-!
# The range of scores

A context whose adapted inputs are in range gets a decision under every accepted configuration with
finite weights, as long as a double holds what the integers among them come to. Without rounding the
score of a coherence scan or an automation check lies between zero and one. The score of
back-casting is at most the sum of its weights, and that may be above one by the tolerance of the
check.
-/
namespace DecisionGate

/-- A double between zero and one. -/
def IsUnitDouble (x : Float) : Prop := ∃ q, Exact.ofDouble x = .rational q ∧ Exact.IsUnit q

/-- A double that is not negative, infinity among them. -/
def IsCount (x : Float) : Prop :=
  Exact.ofDouble x = .infinite false ∨ ∃ q, Exact.ofDouble x = .rational q ∧ 0 ≤ q

namespace Builtin

/-- The adapted inputs of a context are in range. -/
def InRange (b : Builtin) (context : Value) : Prop :=
  match b with
  | .backCasting => ∃ i, BackCastingInput.ofContext context = .ok i ∧
      IsUnitDouble i.clarity ∧ IsUnitDouble i.alignment
  | .coherenceScan => ∃ i, CoherenceInput.ofContext context = .ok i ∧
      IsUnitDouble i.truthfulness ∧ IsUnitDouble i.systemAdherence ∧ IsUnitDouble i.skill
  | .automationCheck => ∃ i, AutomationInput.ofContext context = .ok i ∧
      IsCount i.frequency ∧ IsUnitDouble i.standardizable

end Builtin

/-- Finite weights of which the integers are no more together than the largest double. -/
structure Weighable (ws : List Value) : Prop where
  finite : ∀ w ∈ ws, ∃ q, Config.quantity? w = some (.rational q)
  integers : (((ws.map Value.integerPart).sum : ℤ) : ℚ) ≤ Value.largest

theorem Weighable.isConvertible {ws : List Value} (h : Weighable ws)
    (hws : ∀ w ∈ ws, w.IsSummand) {w : Value} (hw : w ∈ ws) : w.IsConvertible := by
  refine (hws w hw).isConvertible ?_
  have hle : w.integerPart ≤ (ws.map Value.integerPart).sum := by
    refine List.single_le_sum ?_ _ (List.mem_map_of_mem hw)
    simpa using fun w hw => Value.integerPart_nonneg (hws w hw)
  have hle' : (w.integerPart : ℚ) ≤ ((ws.map Value.integerPart).sum : ℤ) := by exact_mod_cast hle
  exact hle'.trans h.integers

/-- A weight that a double holds, and what it stands for. -/
structure Weighs (w : Value) (p : ℚ) : Prop where
  convertible : w.IsConvertible
  exact : Config.quantity? w = some (.rational p)
  nonneg : 0 ≤ p

theorem Weighs.ofValue_eq {w : Value} {p : ℚ} (h : Weighs w p) :
    Exact.ofValue w = .rational p := by
  rw [Exact.ofValue, h.exact]
  rfl

namespace Config

theorem Accepts.weighs {config hs : Entries} (h : Accepts (.map config) hs) {b : Builtin}
    (hweights : Weighable (b.weights (sectionOf config b.id))) {w : Value}
    (hw : w ∈ b.weights (sectionOf config b.id)) : ∃ p, Weighs w p := by
  obtain ⟨p, hp⟩ := hweights.finite w hw
  refine ⟨p, ?_, hp, nonneg_of_isNotNegative (h.effective_weight hw) hp⟩
  exact hweights.isConvertible
    (fun w hw => isSummand_of_isNotNegative (h.effective_weight hw)) hw

end Config

/-- A call that gives a decision, and a score between zero and a bound when nothing is rounded. -/
def Scores (f : Behaviour) (context : Value) (bound : ℚ) : Prop :=
  ∃ d q, f.run context = .ok (.decision d) ∧ f.exactScore context = some (.rational q) ∧
    0 ≤ q ∧ q ≤ bound

/-- The score of back-casting is the weighted sum. -/
theorem exactScore_backCasting {s : BackCasting.Settings Value} {context : Value}
    {i : BackCastingInput} (hi : BackCastingInput.ofContext context = .ok i) :
    (Behaviour.backCasting s).exactScore context =
      some (((Exact.ofDouble i.clarity).mul (Exact.ofValue s.endStateWeight)).add
        ((Exact.ofDouble i.alignment).mul (Exact.ofValue s.marketWeight))) := by
  obtain ⟨o, ho, -⟩ : Gives (BackCasting.assess (s.map Exact.ofValue) (.ofDouble i.clarity)
      (.ofDouble i.alignment)) fun _ => True :=
    tame_exact.backCasting_assess ⟨trivial, trivial⟩ ⟨trivial, trivial⟩ trivial trivial
  obtain ⟨e, m, he, hm, hsum⟩ := BackCasting.assess_score ho
  obtain rfl := Except.ok.inj he
  obtain rfl := Except.ok.inj hm
  have hscore : _ = o.score := Except.ok.inj hsum
  simp only [Behaviour.exactScore, hi, ho, Except.toOption, Option.bind_eq_bind, Option.bind_some,
    ← hscore]
  rfl

theorem backCasting_scores {s : BackCasting.Settings Value} {context : Value}
    {i : BackCastingInput} (hi : BackCastingInput.ofContext context = .ok i)
    (hc : IsUnitDouble i.clarity) (ha : IsUnitDouble i.alignment) {p q : ℚ}
    (hend : Weighs s.endStateWeight p) (hmarket : Weighs s.marketWeight q)
    (hthresholds : s.confidence.IsConvertible ∧ s.priority.IsConvertible) :
    Scores (.backCasting s) context (p + q) := by
  obtain ⟨c, hc, hcunit⟩ := hc
  obtain ⟨a, ha, haunit⟩ := ha
  obtain ⟨o, ho, -⟩ : Gives (BackCasting.assess s (.float i.clarity) (.float i.alignment))
      fun _ => True :=
    Value.tame_value.backCasting_assess ⟨hend.convertible, hmarket.convertible⟩ hthresholds
      ⟨_, rfl⟩ ⟨_, rfl⟩
  refine ⟨BackCasting.decision i o, c * p + a * q, ?_, ?_, ?_, ?_⟩
  · simp [Behaviour.run, hi, liftInput, BackCasting.decide, ho, liftFault, Except.map]
  · rw [exactScore_backCasting hi, hc, ha, hend.ofValue_eq, hmarket.ofValue_eq]
    rfl
  · exact add_nonneg (mul_nonneg hcunit.1 hend.nonneg) (mul_nonneg haunit.1 hmarket.nonneg)
  · exact add_le_add (mul_le_of_le_one_left hend.nonneg hcunit.2)
      (mul_le_of_le_one_left hmarket.nonneg haunit.2)

theorem coherence_scores {s : Coherence.Settings Value} {context : Value} {i : CoherenceInput}
    (hi : CoherenceInput.ofContext context = .ok i) (ht : IsUnitDouble i.truthfulness)
    (hsystem : IsUnitDouble i.systemAdherence) (hskill : IsUnitDouble i.skill) {p q r : ℚ}
    (hp : Weighs s.truthfulnessWeight p) (hq : Weighs s.systemWeight q)
    (hr : Weighs s.skillWeight r)
    (htotal : Gives (total [s.truthfulnessWeight, s.systemWeight, s.skillWeight])
      Value.IsConvertible)
    (hthresholds : s.veto.IsConvertible ∧ s.approve.IsConvertible ∧ s.review.IsConvertible) :
    Scores (.coherence s) context 1 := by
  obtain ⟨t, ht, htunit⟩ := ht
  obtain ⟨a, ha, haunit⟩ := hsystem
  obtain ⟨k, hk, hkunit⟩ := hskill
  obtain ⟨o, ho, -⟩ : Gives (Coherence.assess s (.float i.truthfulness)
      (.float i.systemAdherence) (.float i.skill)) fun _ => True :=
    Value.tame_value.coherence_assess ⟨hp.convertible, hq.convertible, hr.convertible⟩ htotal
      hthresholds ⟨_, rfl⟩ ⟨_, rfl⟩ ⟨_, rfl⟩
  obtain ⟨o', ho', -⟩ : Gives (Coherence.assess (s.map Exact.ofValue) (.ofDouble i.truthfulness)
      (.ofDouble i.systemAdherence) (.ofDouble i.skill)) fun _ => True :=
    tame_exact.coherence_assess ⟨trivial, trivial, trivial⟩ (gives_total_exact _)
      ⟨trivial, trivial, trivial⟩ trivial trivial trivial
  obtain ⟨x, hscore, hunit⟩ : ∃ x, o'.score = .rational x ∧ Exact.IsUnit x := by
    rcases Coherence.assess_cases ho' with rfl | ⟨scan, rfl, hmean⟩
    · exact ⟨0.0, rfl, by norm_num [Exact.IsUnit]⟩
    · obtain ⟨x, hx, hunit⟩ : ∃ x, weightedMean ([(t, p), (a, q), (k, r)].map Exact.pair) =
          .ok (.rational x) ∧ Exact.IsUnit x :=
        Exact.weightedMean_isUnit
          (by simp [htunit, haunit, hkunit, hp.nonneg, hq.nonneg, hr.nonneg])
      have hsame : weightedMean
          [(Exact.ofDouble i.truthfulness, Exact.ofValue s.truthfulnessWeight),
          (Exact.ofDouble i.systemAdherence, Exact.ofValue s.systemWeight),
          (Exact.ofDouble i.skill, Exact.ofValue s.skillWeight)] = .ok scan.score := hmean
      rw [ht, ha, hk, hp.ofValue_eq, hq.ofValue_eq, hr.ofValue_eq] at hsame
      exact ⟨x, Except.ok.inj (hsame.symm.trans hx), hunit⟩
  refine ⟨Coherence.decision s i o, x, ?_, ?_, hunit⟩
  · simp [Behaviour.run, hi, liftInput, Coherence.decide, ho, liftFault, Except.map]
  · simp [Behaviour.exactScore, hi, ho', hscore, Except.toOption]

theorem automation_scores {s : Automation.Settings Value} {context : Value} {i : AutomationInput}
    (hi : AutomationInput.ofContext context = .ok i) (hf : IsCount i.frequency)
    (hst : IsUnitDouble i.standardizable) {p q r : ℚ}
    (hp : Weighs s.frequencyWeight p) (hq : Weighs s.standardizationWeight q)
    (hr : Weighs s.guardrailsWeight r)
    (htotal : Gives (total [s.frequencyWeight, s.standardizationWeight, s.guardrailsWeight])
      Value.IsConvertible)
    (hthresholds : s.tippingPoint.IsConvertible ∧ s.standardization.IsConvertible ∧
      s.automate.IsConvertible) :
    Scores (.automation s) context 1 := by
  obtain ⟨a, ha, haunit⟩ := hst
  obtain ⟨o, ho, -⟩ : Gives (Automation.assess s (.float i.frequency) (.float i.standardizable)
      i.hasGuardrails) fun _ => True :=
    Value.tame_value.automation_assess ⟨hp.convertible, hq.convertible, hr.convertible⟩ htotal
      hthresholds ⟨_, rfl⟩ ⟨_, rfl⟩ _
  obtain ⟨o', ho', -⟩ : Gives (Automation.assess (s.map Exact.ofValue) (.ofDouble i.frequency)
      (.ofDouble i.standardizable) i.hasGuardrails) fun _ => True :=
    tame_exact.automation_assess ⟨trivial, trivial, trivial⟩ (gives_total_exact _)
      ⟨trivial, trivial, trivial⟩ trivial trivial _
  obtain ⟨x, hscore, hunit⟩ : ∃ x, o'.score = .rational x ∧ Exact.IsUnit x := by
    rcases Automation.assess_cases ho' with ⟨-, _, rfl⟩ | ⟨-, check, rfl, hnormalized, hmean⟩
    · exact ⟨0.0, rfl, by norm_num [Exact.IsUnit]⟩
    · obtain ⟨n, hn, hnunit⟩ := Exact.normalize_isUnit hf hnormalized
      have hone : Exact.IsUnit 1.0 := by norm_num [Exact.IsUnit]
      obtain ⟨x, hx, hunit⟩ : ∃ x, weightedMean ([(n, p), (a, q), (1.0, r)].map Exact.pair) =
          .ok (.rational x) ∧ Exact.IsUnit x :=
        Exact.weightedMean_isUnit
          (by simp [hnunit, haunit, hone, hp.nonneg, hq.nonneg, hr.nonneg])
      have hsame : weightedMean [(check.normalizedFrequency, Exact.ofValue s.frequencyWeight),
          (Exact.ofDouble i.standardizable, Exact.ofValue s.standardizationWeight),
          (1.0, Exact.ofValue s.guardrailsWeight)] = .ok check.score := hmean
      rw [hn, ha, hp.ofValue_eq, hq.ofValue_eq, hr.ofValue_eq] at hsame
      exact ⟨x, Except.ok.inj (hsame.symm.trans hx), hunit⟩
  refine ⟨Automation.decision i o, x, ?_, ?_, hunit⟩
  · simp [Behaviour.run, hi, liftInput, Automation.decide, ho, liftFault, Except.map]
  · simp [Behaviour.exactScore, hi, ho', hscore, Except.toOption]

namespace Config

section
variable {config hs : Entries} (h : Accepts (.map config) hs) {b : Builtin}
include h

theorem Accepts.gives_total (hweights : Weighable (b.weights (sectionOf config b.id))) :
    Gives (total (b.weights (sectionOf config b.id))) Value.IsConvertible :=
  Value.gives_total (fun _ hw => isSummand_of_isNotNegative (h.effective_weight hw))
    hweights.integers

/-- Both weights of back-casting, when both are configured, are one together but for a
hundredth. -/
theorem Accepts.backCasting_sum {es : Entries} {v w : Value} {p q : ℚ}
    (hes : parameters (.map config) .backCasting .weights = .map es)
    (hv : es.get? "end_state_vision" = some v) (hw : es.get? "current_market_signals" = some w)
    (hp : Weighs v p) (hq : Weighs w q) : p + q ≤ 101 / 100 := by
  obtain ⟨p', q', hp', hq', hsum⟩ := checkWeightSum_eq_nil h.weightSum (h.groupOf?_eq hes)
    (by rw [hv, Option.getD_some]) (by rw [hw, Option.getD_some]) ⟨p, hp.exact, hp.nonneg⟩
    ⟨q, hq.exact, hq.nonneg⟩
  obtain rfl : p = p' := by simpa using hp.exact.symm.trans hp'
  obtain rfl : q = q' := by simpa using hq.exact.symm.trans hq'
  linarith [(abs_le.mp hsum).2]

end

/-- The bound on a score: one, but for back-casting the sum of its two weights. -/
theorem Accepts.scores {config hs : Entries} (h : Accepts (.map config) hs) {b : Builtin}
    {context : Value} (hin : b.InRange context)
    (hweights : Weighable (b.weights (sectionOf config b.id))) :
    ∃ bound, Scores (b.behaviour (sectionOf config b.id)) context bound ∧
      (b ≠ .backCasting → bound = 1) ∧
      (b = .backCasting → ∃ p q,
        Weighs (parameter (sectionOf config b.id) b .weights "end_state_vision") p ∧
        Weighs (parameter (sectionOf config b.id) b .weights "current_market_signals") q ∧
        bound = p + q) := by
  have hthreshold := fun p hp => h.effective_threshold (b := b) (p := p) hp
  have htotal := h.gives_total hweights
  have hweighs := fun w hw => h.weighs hweights (w := w) hw
  cases b with
  | backCasting =>
    obtain ⟨i, hi, hc, ha⟩ := hin
    simp only [Builtin.weights, defaultWeights, List.map_cons, List.map_nil,
      List.forall_mem_cons] at hweighs
    obtain ⟨⟨p, hp⟩, ⟨q, hq⟩, -⟩ := hweighs
    simp only [defaultThresholds, List.forall_mem_cons] at hthreshold
    exact ⟨p + q, backCasting_scores hi hc ha hp hq ⟨hthreshold.1, hthreshold.2.1⟩,
      by simp, fun _ => ⟨p, q, hp, hq, rfl⟩⟩
  | coherenceScan =>
    obtain ⟨i, hi, ht, ha, hk⟩ := hin
    simp only [Builtin.weights, defaultWeights, List.map_cons, List.map_nil,
      List.forall_mem_cons] at hweighs
    obtain ⟨⟨p, hp⟩, ⟨q, hq⟩, ⟨r, hr⟩, -⟩ := hweighs
    simp only [defaultThresholds, List.forall_mem_cons] at hthreshold
    exact ⟨1, coherence_scores hi ht ha hk hp hq hr htotal
      ⟨hthreshold.1, hthreshold.2.1, hthreshold.2.2.1⟩, fun _ => rfl, by simp⟩
  | automationCheck =>
    obtain ⟨i, hi, hf, ha⟩ := hin
    simp only [Builtin.weights, defaultWeights, List.map_cons, List.map_nil,
      List.forall_mem_cons] at hweighs
    obtain ⟨⟨p, hp⟩, ⟨q, hq⟩, ⟨r, hr⟩, -⟩ := hweighs
    simp only [defaultThresholds, List.forall_mem_cons] at hthreshold
    exact ⟨1, automation_scores hi hf ha hp hq hr htotal
      ⟨hthreshold.1, hthreshold.2.1, hthreshold.2.2.1⟩, fun _ => rfl, by simp⟩

/-- What an accepted configuration makes of a context in range. -/
theorem accepted_scores {config : Entries} (h : check (.map config) = .ok []) {b : Builtin}
    {context : Value} (hin : b.InRange context)
    (hweights : Weighable (b.weights (sectionOf config b.id))) :
    ∃ f d q, b.template.compile (.map (sectionOf config b.id)) = .ok f ∧
      f.run context = .ok (.decision d) ∧ f.exactScore context = some (.rational q) ∧ 0 ≤ q ∧
      (b ≠ .backCasting → q ≤ 1) ∧
      (b = .backCasting → ∀ (es : Entries) v w, parameters (.map config) b .weights = .map es →
        es.get? "end_state_vision" = some v → es.get? "current_market_signals" = some w →
        ∃ p r, quantity? v = some (.rational p) ∧ quantity? w = some (.rational r) ∧ q ≤ p + r ∧
          p + r ≤ 101 / 100) := by
  obtain ⟨hs, haccepts⟩ := accepts_of_check h
  obtain ⟨bound, ⟨d, q, hrun, hscore, hnonneg, hle⟩, hmean, hsum⟩ := haccepts.scores hin hweights
  refine ⟨_, d, q, rfl, hrun, hscore, hnonneg, ?_, ?_⟩
  · intro hb
    rwa [hmean hb] at hle
  · rintro rfl es v w hes hv hw
    obtain ⟨p, r, hp, hr, rfl⟩ := hsum rfl
    rw [haccepts.weight_parameter hes hv] at hp
    rw [haccepts.weight_parameter hes hw] at hr
    exact ⟨p, r, hp.exact, hr.exact, hle, haccepts.backCasting_sum hes hv hw hp hr⟩

theorem isUnitDouble_of_compare {x : Float} (hnan : Double.isNaN x = false)
    (hlow : (Number.float x).compare .lt (.int 0) = false)
    (hhigh : (Number.float x).compare .gt (.int 1) = false) : IsUnitDouble x := by
  have hx : Exact.ofNumber (.float x) ≠ .nan := by
    intro hx
    simp [Exact.isNaN_iff.mpr hx] at hnan
  obtain ⟨q, hq, hlow, hhigh⟩ := Exact.between_ints hx hlow hhigh
  exact ⟨q, hq, by simpa using hlow, by simpa using hhigh⟩

/-- Clarity and alignment as great as they can be. -/
def certain : Value :=
  Value.ofNames [("end_state_clarity", .int 1), ("market_alignment", .int 1)]

theorem ofContext_certain : ∃ i, BackCastingInput.ofContext certain = .ok i ∧
    Exact.ofDouble i.clarity = .rational 1 ∧ Exact.ofDouble i.alignment = .rational 1 := by
  have hone : Exact.ofParts (.finite false (2 ^ 52) (-52)) = .rational 1 := by
    norm_num [Exact.ofParts]
  have hparts : (BackCastingInput.ofContext certain).toOption.any (fun i =>
      Double.parts i.clarity == .finite false (2 ^ 52) (-52) &&
        Double.parts i.alignment == .finite false (2 ^ 52) (-52)) = true := by
    decide +kernel
  obtain ⟨i, hi, hboth⟩ := any_toOption_iff.mp hparts
  simp only [Bool.and_eq_true, beq_iff_eq] at hboth
  refine ⟨i, hi, ?_, ?_⟩
  · rw [Exact.ofDouble, hboth.1, hone]
  · rw [Exact.ofDouble, hboth.2, hone]

theorem inRange_certain : Builtin.InRange .backCasting certain := by
  obtain ⟨i, hi, hc, ha⟩ := ofContext_certain
  exact ⟨i, hi, ⟨1, hc, by norm_num [Exact.IsUnit]⟩, ⟨1, ha, by norm_num [Exact.IsUnit]⟩⟩

def isFiniteDouble : Value → Bool
  | .float x => Double.isFinite x
  | _ => false

theorem weighable_of_doubles {ws : List Value} (h : ws.all isFiniteDouble = true) :
    Weighable ws := by
  have heach : ∀ w ∈ ws, ∃ x, w = .float x ∧ Double.isFinite x = true := by
    intro w hw
    have hfinite := List.all_eq_true.mp h w hw
    cases w with
    | float x => exact ⟨x, rfl, hfinite⟩
    | _ => cases hfinite
  constructor
  · intro w hw
    obtain ⟨x, rfl, hx⟩ := heach w hw
    obtain ⟨q, hq⟩ := Exact.isFinite_iff.mp hx
    exact ⟨q, congrArg some hq⟩
  · have hzero : (ws.map Value.integerPart).sum = 0 := by
      apply List.sum_eq_zero
      intro k hk
      obtain ⟨w, hw, rfl⟩ := List.mem_map.mp hk
      obtain ⟨x, rfl, -⟩ := heach w hw
      rfl
    rw [hzero, Int.cast_zero, Value.largest]
    positivity

theorem accepted_scores_default : ∃ f d q,
    check (.map defaultEntries) = .ok [] ∧ Builtin.InRange .backCasting certain ∧
      Weighable (Builtin.backCasting.weights (sectionOf defaultEntries Builtin.backCasting.id)) ∧
      Builtin.backCasting.template.compile
        (.map (sectionOf defaultEntries Builtin.backCasting.id)) = .ok f ∧
      f.run certain = .ok (.decision d) ∧ f.exactScore certain = some (.rational q) ∧ 0 ≤ q := by
  have h : check (.map defaultEntries) = .ok [] := check_eq_nil_of_isEmpty (by decide +kernel)
  have hweights : Weighable
      (Builtin.backCasting.weights (sectionOf defaultEntries Builtin.backCasting.id)) :=
    weighable_of_doubles (by decide +kernel)
  obtain ⟨f, d, q, hf, hrun, hscore, hnonneg, -, -⟩ :=
    accepted_scores h inRange_certain hweights
  exact ⟨f, d, q, h, inRange_certain, hweights, hf, hrun, hscore, hnonneg⟩

/-- Weights that are one together but for the tolerance. -/
def tolerated : Entries :=
  Entries.ofNames
    [("end_state_vision", .float 0.5), ("current_market_signals", .float 0.50390625)]

theorem exactScore_tolerated :
    (Builtin.behaviour .backCasting
      (sectionOf (documentWith .backCasting tolerated) Builtin.backCasting.id)).exactScore
        certain = some (.rational (257 / 256)) := by
  obtain ⟨i, hi, hc, ha⟩ := ofContext_certain
  have hhalf : Exact.ofValue (.float 0.5) = .rational (1 / 2) := Exact.ofDouble_half
  have hmore : Exact.ofValue (.float 0.50390625) = .rational (129 / 256) := by
    have hparts : Double.parts 0.50390625 = .finite false (129 * 2 ^ 45) (-53) := by
      decide +kernel
    show Exact.ofParts (Double.parts 0.50390625) = _
    rw [hparts]
    norm_num [Exact.ofParts]
  have hscore := exactScore_backCasting hi (s := BackCasting.settings
    (sectionOf (documentWith .backCasting tolerated) Builtin.backCasting.id))
  rw [hc, ha] at hscore
  refine hscore.trans ?_
  show some (Exact.add (Exact.mul (.rational 1) (.ofValue (.float 0.5)))
    (Exact.mul (.rational 1) (.ofValue (.float 0.50390625)))) = _
  rw [hhalf, hmore]
  norm_num [Exact.add, Exact.mul]

theorem exactScore_nanWeights :
    (Builtin.behaviour .backCasting
      (sectionOf (documentWith .backCasting nanWeights) Builtin.backCasting.id)).exactScore
        certain = some .nan := by
  obtain ⟨i, hi, hc, ha⟩ := ofContext_certain
  have hnan : Exact.ofValue (.float Double.nan) = .nan := by
    have hparts : Double.parts Double.nan = .nan := by decide +kernel
    show Exact.ofParts (Double.parts Double.nan) = _
    rw [hparts]
    rfl
  have hscore := exactScore_backCasting hi (s := BackCasting.settings
    (sectionOf (documentWith .backCasting nanWeights) Builtin.backCasting.id))
  rw [hc, ha] at hscore
  refine hscore.trans ?_
  show some (Exact.add (Exact.mul (.rational 1) (.ofValue (.float Double.nan))) _) = _
  rw [hnan]
  rfl

/-- A weight that no double holds. -/
def heavy : Entries := Entries.ofNames [("truthfulness", .int (10 ^ 400))]

def truthful : Value := Value.ofNames [("truthfulness", .int 1)]

theorem inRange_truthful : Builtin.InRange .coherenceScan truthful := by
  have hunit : (CoherenceInput.ofContext truthful).toOption.any (fun i =>
      [i.truthfulness, i.systemAdherence, i.skill].all fun x =>
        !Double.isNaN x && !(Number.float x).compare .lt (.int 0) &&
          !(Number.float x).compare .gt (.int 1)) = true := by
    decide +kernel
  obtain ⟨i, hi, hall⟩ := any_toOption_iff.mp hunit
  simp only [List.all_eq_true, Bool.and_eq_true, Bool.not_eq_true'] at hall
  have heach : ∀ x ∈ [i.truthfulness, i.systemAdherence, i.skill], IsUnitDouble x :=
    fun x hx => isUnitDouble_of_compare (hall x hx).1.1 (hall x hx).1.2 (hall x hx).2
  exact ⟨i, hi, heach _ (by simp), heach _ (by simp), heach _ (by simp)⟩

theorem run_heavy : Fails ((Builtin.behaviour .coherenceScan
    (sectionOf (documentWith .coherenceScan heavy) Builtin.coherenceScan.id)).run truthful) :=
  isNone_toOption_iff.mp (by decide +kernel)

/-- Accepted documents under which a score is above one, is NaN, or is not there at all. -/
theorem accepted_unsafe :
    (check (.map (documentWith .backCasting tolerated)) = .ok [] ∧
      Builtin.InRange .backCasting certain ∧
      ∃ f q, Builtin.backCasting.template.compile
          (.map (sectionOf (documentWith .backCasting tolerated) Builtin.backCasting.id)) = .ok f ∧
        f.exactScore certain = some (.rational q) ∧ 1 < q) ∧
    (check (.map (documentWith .backCasting nanWeights)) = .ok [] ∧
      ∃ f, Builtin.backCasting.template.compile
          (.map (sectionOf (documentWith .backCasting nanWeights) Builtin.backCasting.id)) =
            .ok f ∧
        f.exactScore certain = some .nan) ∧
    (check (.map (documentWith .coherenceScan heavy)) = .ok [] ∧
      Builtin.InRange .coherenceScan truthful ∧
      ∃ f e, Builtin.coherenceScan.template.compile
          (.map (sectionOf (documentWith .coherenceScan heavy) Builtin.coherenceScan.id)) = .ok f ∧
        f.run truthful = .error e) := by
  obtain ⟨e, he⟩ := run_heavy
  refine ⟨⟨check_eq_nil_of_isEmpty ?_, inRange_certain, _, _, rfl, exactScore_tolerated,
      by norm_num⟩, ⟨check_eq_nil_of_isEmpty ?_, _, rfl, exactScore_nanWeights⟩,
    check_eq_nil_of_isEmpty ?_, inRange_truthful, _, e, rfl, he⟩ <;>
  decide +kernel

end Config

end DecisionGate
