import DecisionGate.Proofs.Parameters

/-!
# The rules between effective parameters

The check looks at the parameters that are configured, a compiled function at those that count. An
absent weight is nothing to the check and the default to the function, and a rule between two
thresholds rests when one of them is absent. So the rules that the check knows hold between the
parameters of the compiled functions when both weights are configured, and when a threshold that
stands alone keeps to the default of the other; a document with one weight only always breaks them.
-/
namespace DecisionGate

def Value.IsNaN (v : Value) : Prop := ∃ x, v = .float x ∧ Double.isNaN x = true

namespace Config

/-- Two numbers that are in a relation. -/
def Related (r : ℚ → ℚ → Prop) (v w : Value) : Prop :=
  ∃ p q, quantity? v = some (.rational p) ∧ quantity? w = some (.rational q) ∧ r p q

/-- Two weights are one together, but for a hundredth. -/
def Complementary (p q : ℚ) : Prop := |p + q - 1| ≤ 1 / 100

end Config

/-- The rules of the check, for the parameters that a function was compiled with. -/
def Behaviour.KeepsRules : Behaviour → Prop
  | .backCasting s => Config.Related Config.Complementary s.endStateWeight s.marketWeight
  | .coherence s => Config.Related (· < ·) s.review s.approve
  | .automation s => Config.Related (· ≤ ·) s.standardization s.automate
  | .custom _ => True

namespace Config

/-- Both weights are configured, and neither is NaN. -/
def WeighsBoth (es : Entries) : Prop :=
  ∃ v w, es.get? "end_state_vision" = some v ∧ es.get? "current_market_signals" = some w ∧
    ¬ v.IsNaN ∧ ¬ w.IsNaN

/-- Neither of two thresholds is NaN, and one that is configured without the other is in the
relation with its default. -/
structure Fits (r : ℚ → ℚ → Prop) (b : Builtin) (first second : String) (es : Entries) : Prop where
  definite : ∀ v, es.get? first = some v ∨ es.get? second = some v → ¬ v.IsNaN
  firstAlone : ∀ v, es.get? first = some v → es.get? second = none →
    Related r v (default b .thresholds second)
  secondAlone : ∀ w, es.get? first = none → es.get? second = some w →
    Related r (default b .thresholds first) w

/-- What a section has to have for the rules to hold once the defaults are in. -/
def Suffices (config : Value) : Builtin → Prop
  | .backCasting => ∃ es, parameters config .backCasting .weights = .map es ∧ WeighsBoth es
  | .coherenceScan => ∃ es, parameters config .coherenceScan .thresholds = .map es ∧
      Fits (· < ·) .coherenceScan "review" "approve" es
  | .automationCheck => ∃ es, parameters config .automationCheck .thresholds = .map es ∧
      Fits (· ≤ ·) .automationCheck "standardization" "automate" es

theorem parameter_of_none {config : Entries} {b : Builtin} {g : Group} {es : Entries}
    {key : String} (hes : parameters (.map config) b g = .map es) (hnone : es.get? key = none) :
    parameter (sectionOf config b.id) b g key = default b g key := by
  rcases parameter_cases hes key with hconfigured | habsent
  · exact absurd (hnone.symm.trans hconfigured) (by simp)
  · exact habsent

theorem not_isNaN_of_quantity? {v : Value} {q : ℚ} (h : quantity? v = some (.rational q)) :
    ¬ v.IsNaN := by
  rintro ⟨x, rfl, hx⟩
  have hnot := isNaN_of_quantity? h
  exact absurd (hx.symm.trans hnot) (by simp)

theorem ofNumber_ne_nan_of_not_isNaN {v : Value} {n : Number} (hn : number? v = some n)
    (h : ¬ v.IsNaN) : Exact.ofNumber n ≠ .nan := by
  refine ofNumber_ne_nan hn fun x hx => Bool.eq_false_iff.mpr fun hnan => h ⟨x, hx, hnan⟩

section
variable {config hs : Entries} (h : Accepts (.map config) hs)
include h

theorem Accepts.threshold_parameter {b : Builtin} {es : Entries} {key : String} {v : Value}
    (hes : parameters (.map config) b .thresholds = .map es) (hv : es.get? key = some v) :
    parameter (sectionOf config b.id) b .thresholds key = v := by
  apply parameter_of_get? hes hv
  obtain ⟨n, hn, -⟩ := checkThreshold_eq_none (h.checkThreshold hes (mem_of_get? hv))
  rintro rfl
  cases hn

/-- A threshold that is not NaN is a number. -/
theorem Accepts.threshold_quantity {b : Builtin} {es : Entries} {key : String} {v : Value}
    (hes : parameters (.map config) b .thresholds = .map es) (hv : es.get? key = some v)
    (hnan : ¬ v.IsNaN) : ∃ q, quantity? v = some (.rational q) := by
  have hcheck := h.checkThreshold hes (mem_of_get? hv)
  have hthreshold := isThreshold_of_check hcheck fun x hx =>
    Bool.eq_false_iff.mpr fun hx' => hnan ⟨x, hx, hx'⟩
  exact quantity?_of_isThreshold hthreshold

variable {r : ℚ → ℚ → Prop} {b : Builtin} {first second : String} {broken : Comparison}
  {problem : Value → Value → Problem} {es : Entries}

/-- Two thresholds that are both there and not NaN are in the relation that was checked. -/
theorem Accepts.related_of_check {v w : Value}
    (hcheck : checkOrder hs b first second broken problem = .ok none)
    (hr : ∀ p q : ℚ, broken.holds (cmp p q) = false → r p q)
    (hes : parameters (.map config) b .thresholds = .map es) (hv : es.get? first = some v)
    (hw : es.get? second = some w) (hvnan : ¬ v.IsNaN) (hwnan : ¬ w.IsNaN) : Related r v w := by
  obtain ⟨p, hp⟩ := h.threshold_quantity hes hv hvnan
  obtain ⟨q, hq⟩ := h.threshold_quantity hes hw hwnan
  have hkept := h.order_of_quantities hes hcheck hv hw hp hq
  exact ⟨p, q, hp, hq, hr p q hkept⟩

/-- The thresholds that count are in the relation exactly when the section fits the defaults. -/
theorem Accepts.related_iff
    (hcheck : checkOrder hs b first second broken problem = .ok none)
    (hr : ∀ p q : ℚ, broken.holds (cmp p q) = false → r p q)
    (hes : parameters (.map config) b .thresholds = .map es)
    (hdefaults : Related r (default b .thresholds first) (default b .thresholds second)) :
    Related r (parameter (sectionOf config b.id) b .thresholds first)
      (parameter (sectionOf config b.id) b .thresholds second) ↔ Fits r b first second es := by
  constructor
  · intro hrelated
    obtain ⟨p, q, hp, hq, hpq⟩ := hrelated
    refine ⟨?_, ?_, ?_⟩
    · rintro v (hv | hv)
      · rw [h.threshold_parameter hes hv] at hp
        exact not_isNaN_of_quantity? hp
      · rw [h.threshold_parameter hes hv] at hq
        exact not_isNaN_of_quantity? hq
    · intro v hv hnone
      rw [h.threshold_parameter hes hv] at hp
      rw [parameter_of_none hes hnone] at hq
      exact ⟨p, q, hp, hq, hpq⟩
    · intro w hnone hw
      rw [parameter_of_none hes hnone] at hp
      rw [h.threshold_parameter hes hw] at hq
      exact ⟨p, q, hp, hq, hpq⟩
  · intro hfits
    cases hv : es.get? first with
    | none =>
      rw [parameter_of_none hes hv]
      cases hw : es.get? second with
      | none =>
        rw [parameter_of_none hes hw]
        exact hdefaults
      | some w =>
        rw [h.threshold_parameter hes hw]
        exact hfits.secondAlone w hv hw
    | some v =>
      rw [h.threshold_parameter hes hv]
      cases hw : es.get? second with
      | none =>
        rw [parameter_of_none hes hw]
        exact hfits.firstAlone v hv hw
      | some w =>
        rw [h.threshold_parameter hes hw]
        exact h.related_of_check hcheck hr hes hv hw (hfits.definite v (.inl hv))
          (hfits.definite w (.inr hw))

/-- What the check takes for a weight: nothing, when it is absent. -/
theorem Accepts.isNotNegative_weight (hes : parameters (.map config) b .weights = .map es)
    (key : String) : IsNotNegative ((es.get? key).getD (.int 0)) := by
  cases hv : es.get? key with
  | none => exact ⟨.int 0, rfl, by decide⟩
  | some v => exact checkWeight_eq_none (h.checkWeight hes (mem_of_get? hv))

/-- Two weights that are not NaN are finite, as their sum was let through. -/
theorem Accepts.weights_finite (hes : parameters (.map config) .backCasting .weights = .map es)
    {v w : Value} (hv : (es.get? "end_state_vision").getD (.int 0) = v)
    (hw : (es.get? "current_market_signals").getD (.int 0) = w) (hvnan : ¬ v.IsNaN)
    (hwnan : ¬ w.IsNaN) : IsWeight v ∧ IsWeight w := by
  have hvlow := h.isNotNegative_weight hes "end_state_vision"
  have hwlow := h.isNotNegative_weight hes "current_market_signals"
  rw [hv] at hvlow
  rw [hw] at hwlow
  obtain ⟨m, hm, hmlow⟩ := id hvlow
  obtain ⟨n, hn, hnlow⟩ := id hwlow
  obtain ⟨total, t, x, hadd, ht, hx, hnear⟩ :=
    sum_of_checkWeightSum h.weightSum (h.groupOf?_eq hes) hv hw hm hn
  obtain ⟨⟨p, hp⟩, q, hq⟩ := Exact.weights_finite
    (Exact.rational_or_infinite (ofNumber_ne_nan_of_not_isNaN hm hvnan) hmlow)
    (Exact.rational_or_infinite (ofNumber_ne_nan_of_not_isNaN hn hwnan) hnlow) hadd ht hx hnear
  have hpv := quantity?_eq hm hp
  have hqw := quantity?_eq hn hq
  exact ⟨⟨p, hpv, nonneg_of_isNotNegative hvlow hpv⟩, q, hqw, nonneg_of_isNotNegative hwlow hqw⟩

end

theorem quantity?_of_parts {x : Float} {m : Nat} {e : Int} {q : ℚ}
    (hparts : Double.parts x = .finite false m e) (hq : (m : ℚ) * 2 ^ e = q) :
    quantity? (.float x) = some (.rational q) := by
  show some (Exact.ofParts (Double.parts x)) = _
  rw [hparts, ← hq]
  rfl

theorem quantity?_defaultVision : quantity? (default .backCasting .weights "end_state_vision") =
    some (.rational (8106479329266893 / 2 ^ 53)) :=
  quantity?_of_parts (m := 8106479329266893) (e := -53) (by decide +kernel) (by norm_num)

theorem quantity?_defaultSignals :
    quantity? (default .backCasting .weights "current_market_signals") =
      some (.rational (7205759403792794 / 2 ^ 56)) :=
  quantity?_of_parts (m := 7205759403792794) (e := -56) (by decide +kernel) (by norm_num)

section
variable {config hs es : Entries} (h : Accepts (.map config) hs)
  (hes : parameters (.map config) .backCasting .weights = .map es)
include h hes

/-- Weights that the check has let through are one together; an absent one counts as nothing. -/
theorem Accepts.complementary {v w : Value}
    (hv : (es.get? "end_state_vision").getD (.int 0) = v)
    (hw : (es.get? "current_market_signals").getD (.int 0) = w) (hvnan : ¬ v.IsNaN)
    (hwnan : ¬ w.IsNaN) : Related Complementary v w := by
  obtain ⟨hvw, hww⟩ := h.weights_finite hes hv hw hvnan hwnan
  exact checkWeightSum_eq_nil h.weightSum (h.groupOf?_eq hes) hv hw hvw hww

theorem Accepts.complementary_quantities {v w : Value} {p q : ℚ}
    (hv : (es.get? "end_state_vision").getD (.int 0) = v)
    (hw : (es.get? "current_market_signals").getD (.int 0) = w)
    (hp : quantity? v = some (.rational p)) (hq : quantity? w = some (.rational q)) :
    Complementary p q := by
  obtain ⟨p', q', hp', hq', hnear⟩ :=
    h.complementary hes hv hw (not_isNaN_of_quantity? hp) (not_isNaN_of_quantity? hq)
  obtain rfl : p = p' := by simpa using hp.symm.trans hp'
  obtain rfl : q = q' := by simpa using hq.symm.trans hq'
  exact hnear

/-- A weight that stands alone is near one, and the default of the other is too much for the
rest. -/
theorem Accepts.weighsBoth_of_related
    (hrelated : Related Complementary
      (parameter (sectionOf config Builtin.backCasting.id) .backCasting .weights
        "end_state_vision")
      (parameter (sectionOf config Builtin.backCasting.id) .backCasting .weights
        "current_market_signals")) : WeighsBoth es := by
  obtain ⟨p, q, hp, hq, hpq⟩ := hrelated
  have hbounds := abs_le.mp hpq
  cases hv : es.get? "end_state_vision" with
  | none =>
    exfalso
    cases hw : es.get? "current_market_signals" with
    | none =>
      have hnear := h.complementary_quantities hes (by simp [hv]) (by simp [hw]) quantity?_zero
        quantity?_zero
      norm_num [Complementary] at hnear
    | some w =>
      rw [parameter_of_none hes hv, quantity?_defaultVision, Option.some.injEq,
        Exact.rational.injEq] at hp
      rw [h.weight_parameter hes hw] at hq
      have hnear := h.complementary_quantities hes (by simp [hv]) (by simp [hw]) quantity?_zero hq
      have hclose := abs_le.mp hnear
      rw [← hp] at hbounds
      norm_num at hbounds
      linarith
  | some v =>
    rw [h.weight_parameter hes hv] at hp
    cases hw : es.get? "current_market_signals" with
    | none =>
      exfalso
      rw [parameter_of_none hes hw, quantity?_defaultSignals, Option.some.injEq,
        Exact.rational.injEq] at hq
      have hnear := h.complementary_quantities hes (by simp [hv]) (by simp [hw]) hp quantity?_zero
      have hclose := abs_le.mp hnear
      rw [← hq] at hbounds
      norm_num at hbounds
      linarith
    | some w =>
      rw [h.weight_parameter hes hw] at hq
      exact ⟨v, w, hv, hw, not_isNaN_of_quantity? hp, not_isNaN_of_quantity? hq⟩

/-- The weights that count are one together exactly when both are configured. -/
theorem Accepts.complementary_iff :
    Related Complementary
        (parameter (sectionOf config Builtin.backCasting.id) .backCasting .weights
          "end_state_vision")
        (parameter (sectionOf config Builtin.backCasting.id) .backCasting .weights
          "current_market_signals") ↔ WeighsBoth es := by
  constructor
  · exact h.weighsBoth_of_related hes
  · intro hboth
    obtain ⟨v, w, hv, hw, hvnan, hwnan⟩ := hboth
    rw [h.weight_parameter hes hv, h.weight_parameter hes hw]
    exact h.complementary hes (by simp [hv]) (by simp [hw]) hvnan hwnan

end

theorem related_defaultReview : Related (· < ·) (default .coherenceScan .thresholds "review")
    (default .coherenceScan .thresholds "approve") := by
  refine ⟨5404319552844595 / 2 ^ 53, 7205759403792794 / 2 ^ 53, ?_, ?_, by norm_num⟩
  · exact quantity?_of_parts (m := 5404319552844595) (e := -53) (by decide +kernel) (by norm_num)
  · exact quantity?_of_parts (m := 7205759403792794) (e := -53) (by decide +kernel) (by norm_num)

theorem related_defaultStandardization :
    Related (· ≤ ·) (default .automationCheck .thresholds "standardization")
      (default .automationCheck .thresholds "automate") := by
  refine ⟨6305039478318694 / 2 ^ 53, 6755399441055744 / 2 ^ 53, ?_, ?_, by norm_num⟩
  · exact quantity?_of_parts (m := 6305039478318694) (e := -53) (by decide +kernel) (by norm_num)
  · exact quantity?_of_parts (m := 6755399441055744) (e := -53) (by decide +kernel) (by norm_num)

/-- Under an accepted configuration every built-in template compiles, and the parameters of the
compiled function keep to the rules of the check exactly when its section has what they need. -/
theorem effective_rules_iff {config : Entries} (h : check (.map config) = .ok []) (b : Builtin) :
    ∃ f, b.template.compile (.map (sectionOf config b.id)) = .ok f ∧
      (f.KeepsRules ↔ Suffices (.map config) b) := by
  obtain ⟨hs, haccepts⟩ := accepts_of_check h
  refine ⟨b.behaviour (sectionOf config b.id), rfl, ?_⟩
  have hgroup {P : Entries → Prop} {g : Group} {es : Entries}
      (hes : parameters (.map config) b g = .map es) :
      (∃ es', parameters (.map config) b g = .map es' ∧ P es') ↔ P es := by
    simp [hes]
  cases b with
  | backCasting =>
    obtain ⟨es, hes, -⟩ := haccepts.weights .backCasting
    exact (haccepts.complementary_iff hes).trans (hgroup hes).symm
  | coherenceScan =>
    obtain ⟨es, hes, -⟩ := haccepts.thresholds .coherenceScan
    have hiff := haccepts.related_iff (r := (· < ·)) haccepts.review
      (by simp [Comparison.holds, cmp_eq_lt_iff]) hes related_defaultReview
    exact hiff.trans (hgroup hes).symm
  | automationCheck =>
    obtain ⟨es, hes, -⟩ := haccepts.thresholds .automationCheck
    have hiff := haccepts.related_iff (r := (· ≤ ·)) haccepts.standardization
      (by simp [Comparison.holds, cmp_eq_gt_iff]) hes related_defaultStandardization
    exact hiff.trans (hgroup hes).symm

theorem effective_rules_iff_default :
    check (.map defaultEntries) = .ok [] ∧
      ∃ f, Builtin.backCasting.template.compile
          (.map (sectionOf defaultEntries Builtin.backCasting.id)) = .ok f ∧
        (f.KeepsRules ↔ Suffices (.map defaultEntries) .backCasting) := by
  have h : check (.map defaultEntries) = .ok [] := check_eq_nil_of_isEmpty (by decide +kernel)
  exact ⟨h, effective_rules_iff h .backCasting⟩

/-- All the weight on one side, and nothing said of the other. -/
def visionOnly : Entries := Entries.ofNames [("end_state_vision", .float 1.0)]

/-- The check takes the other weight for nothing, the compiled function for the default. -/
theorem visionOnly_overweight :
    check (.map (documentWith .backCasting visionOnly)) = .ok [] ∧
      ∃ s, Builtin.backCasting.template.compile
          (.map (sectionOf (documentWith .backCasting visionOnly) Builtin.backCasting.id)) =
            .ok (.backCasting s) ∧
        ∃ p q, quantity? s.endStateWeight = some (.rational p) ∧
          quantity? s.marketWeight = some (.rational q) ∧ 109 / 100 < p + q ∧
          ¬ (Behaviour.backCasting s).KeepsRules := by
  refine ⟨check_eq_nil_of_isEmpty (by decide +kernel), _, rfl, ?_⟩
  have hvision : quantity? (.float 1.0) = some (.rational 1) :=
    quantity?_of_parts (m := 2 ^ 52) (e := -52) (by decide +kernel) (by norm_num)
  refine ⟨1, 7205759403792794 / 2 ^ 56, hvision, quantity?_defaultSignals, by norm_num, ?_⟩
  rintro ⟨p, q, hp, hq, hpq⟩
  obtain rfl : 1 = p := by simpa using hvision.symm.trans hp
  obtain rfl : 7205759403792794 / 2 ^ 56 = q := by
    simpa using quantity?_defaultSignals.symm.trans hq
  rw [Complementary, abs_le] at hpq
  norm_num at hpq

end Config
end DecisionGate
