import DecisionGate.Heuristic.Template
import DecisionGate.Proofs.Acceptance
import DecisionGate.Proofs.Assessment

/-!
# Scores without rounding

The scoring rules over rational numbers and the special values of doubles. A weighted mean of
numbers between zero and one lies between zero and one, and a frequency is brought there first.
-/
namespace DecisionGate

open Arithmetic

namespace Exact

protected def add : Exact → Exact → Exact
  | .nan, _ => .nan
  | _, .nan => .nan
  | .infinite s, .infinite t => if s = t then .infinite s else .nan
  | .infinite s, .rational _ => .infinite s
  | .rational _, .infinite t => .infinite t
  | .rational p, .rational q => .rational (p + q)

protected def mul : Exact → Exact → Exact
  | .nan, _ => .nan
  | _, .nan => .nan
  | .infinite s, .infinite t => .infinite (s != t)
  | .infinite s, .rational q => if q = 0 then .nan else .infinite (s != decide (q < 0))
  | .rational p, .infinite t => if p = 0 then .nan else .infinite (decide (p < 0) != t)
  | .rational p, .rational q => .rational (p * q)

/-- Zero has no sign here; what is divided by it becomes an infinity of its own sign. -/
protected def div : Exact → Exact → Exact
  | .nan, _ => .nan
  | _, .nan => .nan
  | .infinite _, .infinite _ => .nan
  | .infinite s, .rational q => .infinite (s != decide (q < 0))
  | .rational _, .infinite _ => .rational 0
  | .rational p, .rational q =>
    if q = 0 then if p = 0 then .nan else .infinite (p < 0) else .rational (p / q)

end Exact

/-- Arithmetic without rounding, with the special values of doubles. -/
instance : Arithmetic Exact where
  zero := .rational 0
  ofScientific m s e := .rational (OfScientific.ofScientific m s e)
  add a b := .ok (a.add b)
  mul a b := .ok (a.mul b)
  div a b := .ok (a.div b)
  compare c a b := .ok ((a.compare b).any c.holds)

theorem tame_exact : Tame (fun _ : Exact => True) (fun _ => True) where
  number_zero := trivial
  of_double _ := trivial
  literal _ _ _ := trivial
  compare _ _ _ _ _ := gives_ok trivial
  mul _ _ := gives_ok trivial
  mul_double _ _ := gives_ok trivial
  add _ _ := gives_ok trivial
  zero_add _ := gives_ok trivial
  div _ _ := gives_ok trivial

theorem gives_total_exact (ws : List Exact) : Gives (total ws) fun _ => True := by
  have hfrom : ∀ a, Gives (ws.foldlM Arithmetic.add a) fun _ => True := by
    induction ws with
    | nil => exact fun a => gives_ok trivial
    | cons w ws ih => exact fun a => ih (a.add w)
  exact hfrom _

/-- Values and weights, as a weighted mean takes them. -/
def mean (parts : List (ℚ × ℚ)) : ℚ :=
  if (parts.map Prod.snd).sum ≤ 0 then 0
  else (parts.map fun p => p.1 * p.2).sum / (parts.map Prod.snd).sum

/-- Rational numbers in an arithmetic that does not round them. Nothing is said of a division by
zero. -/
structure Embeds {α : Type} [Arithmetic α] (f : ℚ → α) : Prop where
  zero : Arithmetic.zero = f 0
  literal : ∀ m s e, (OfScientific.ofScientific m s e : α) =
    f (@OfScientific.ofScientific ℚ Rat.instOfScientific m s e)
  add : ∀ p q, Arithmetic.add (f p) (f q) = .ok (f (p + q))
  mul : ∀ p q, Arithmetic.mul (f p) (f q) = .ok (f (p * q))
  div : ∀ p q, q ≠ 0 → Arithmetic.div (f p) (f q) = .ok (f (p / q))
  le : ∀ p q, Arithmetic.compare .le (f p) (f q) = .ok (decide (p ≤ q))
  lt : ∀ p q, Arithmetic.compare .lt (f p) (f q) = .ok (decide (p < q))

namespace Embeds

variable {α : Type} [Arithmetic α] {f : ℚ → α} (h : Embeds f)
include h

theorem total (ws : List ℚ) : total (ws.map f) = .ok (f ws.sum) := by
  have hfrom : ∀ a : ℚ, (ws.map f).foldlM Arithmetic.add (f a) = .ok (f (a + ws.sum)) := by
    induction ws with
    | nil => simp [pure, Except.pure]
    | cons w ws ih =>
      intro a
      rw [List.map_cons, List.foldlM_cons, h.add, ok_bind, ih, List.sum_cons, add_assoc]
  rw [DecisionGate.total, h.zero, hfrom, zero_add]

theorem weightedSum (parts : List (ℚ × ℚ)) :
    weightedSum (parts.map fun p => (f p.1, f p.2)) =
      .ok (f (parts.map fun p => p.1 * p.2).sum) := by
  have hfrom : ∀ a : ℚ, (parts.map fun p => (f p.1, f p.2)).foldlM
      (fun acc p => do Arithmetic.add acc (← Arithmetic.mul p.1 p.2)) (f a) =
        .ok (f (a + (parts.map fun p => p.1 * p.2).sum)) := by
    induction parts with
    | nil => simp [pure, Except.pure]
    | cons p parts ih =>
      intro a
      rw [List.map_cons, List.foldlM_cons, h.mul, ok_bind, h.add, ok_bind, ih, List.map_cons,
        List.sum_cons, add_assoc]
  rw [DecisionGate.weightedSum, h.zero, hfrom, zero_add]

theorem weightedMean (parts : List (ℚ × ℚ)) :
    weightedMean (parts.map fun p => (f p.1, f p.2)) = .ok (f (mean parts)) := by
  have hweights : (parts.map fun p => (f p.1, f p.2)).map Prod.snd =
      (parts.map Prod.snd).map f := by
    rw [List.map_map, List.map_map]
    rfl
  rw [DecisionGate.weightedMean, hweights, h.total, ok_bind, h.zero, h.le, ok_bind, mean]
  by_cases hnone : (parts.map Prod.snd).sum ≤ 0
  · have hzero : (0.0 : ℚ) = 0 := by norm_num
    rw [if_pos (decide_eq_true hnone), if_pos hnone, h.literal, ← hzero]
  · rw [if_neg (by simpa using hnone), if_neg hnone, h.weightedSum, ok_bind,
      h.div _ _ (ne_of_gt (not_le.mp hnone))]

theorem normalize (frequency : ℚ) :
    Automation.normalize (f frequency) = .ok (f (min (frequency / 20) 1)) := by
  have htwenty : @OfScientific.ofScientific ℚ Rat.instOfScientific 200 true 1 = 20 := by norm_num
  have hone : @OfScientific.ofScientific ℚ Rat.instOfScientific 10 true 1 = 1 := by norm_num
  rw [Automation.normalize, h.literal, h.literal, htwenty, hone, h.div _ _ (by norm_num), ok_bind,
    h.lt, ok_bind]
  by_cases hmore : 1 < frequency / 20
  · rw [if_pos (decide_eq_true hmore), min_eq_right hmore.le]
  · rw [if_neg (by simpa using hmore), min_eq_left (not_lt.mp hmore)]

end Embeds

section
variable {parts : List (ℚ × ℚ)} {lo hi : ℚ}

theorem le_weightedSum (h : ∀ p ∈ parts, lo ≤ p.1 ∧ 0 ≤ p.2) :
    lo * (parts.map Prod.snd).sum ≤ (parts.map fun p => p.1 * p.2).sum := by
  rw [← List.sum_map_mul_left]
  apply List.sum_le_sum
  intro p hp
  exact mul_le_mul_of_nonneg_right (h p hp).1 (h p hp).2

theorem weightedSum_le (h : ∀ p ∈ parts, p.1 ≤ hi ∧ 0 ≤ p.2) :
    (parts.map fun p => p.1 * p.2).sum ≤ hi * (parts.map Prod.snd).sum := by
  rw [← List.sum_map_mul_left]
  apply List.sum_le_sum
  intro p hp
  exact mul_le_mul_of_nonneg_right (h p hp).1 (h p hp).2

/-- Without weights the mean is zero, so zero has to be a bound too or a weight to be there. -/
theorem le_mean (h : ∀ p ∈ parts, lo ≤ p.1 ∧ 0 ≤ p.2)
    (hlo : lo ≤ 0 ∨ 0 < (parts.map Prod.snd).sum) : lo ≤ mean parts := by
  unfold mean
  split
  · next hnone => exact hlo.resolve_right (not_lt.mpr hnone)
  · next hsome =>
    rw [le_div_iff₀ (not_le.mp hsome)]
    exact le_weightedSum h

theorem mean_le (h : ∀ p ∈ parts, p.1 ≤ hi ∧ 0 ≤ p.2)
    (hhi : 0 ≤ hi ∨ 0 < (parts.map Prod.snd).sum) : mean parts ≤ hi := by
  unfold mean
  split
  · next hnone => exact hhi.resolve_right (not_lt.mpr hnone)
  · next hsome =>
    rw [div_le_iff₀ (not_le.mp hsome)]
    exact weightedSum_le h

end

namespace Exact

theorem embeds_rational : Embeds rational where
  zero := rfl
  literal _ _ _ := rfl
  add _ _ := rfl
  mul _ _ := rfl
  div p q hq := by
    show Except.ok (Exact.div (.rational p) (.rational q)) = _
    rw [Exact.div, if_neg hq]
  le p q := by
    show Except.ok (Comparison.le.holds (cmp p q)) = _
    rw [Except.ok.injEq, Bool.eq_iff_iff]
    simp [Comparison.holds, cmp_eq_gt_iff]
  lt p q := by
    show Except.ok (Comparison.lt.holds (cmp p q)) = _
    rw [Except.ok.injEq, Bool.eq_iff_iff]
    simp [Comparison.holds, cmp_eq_lt_iff]

/-- A value and its weight. -/
def pair (p : ℚ × ℚ) : Exact × Exact := (.rational p.1, .rational p.2)

def IsUnit (q : ℚ) : Prop := 0 ≤ q ∧ q ≤ 1

/-- A weighted mean of numbers between zero and one lies between zero and one. -/
theorem weightedMean_isUnit {parts : List (ℚ × ℚ)}
    (hparts : ∀ p ∈ parts, IsUnit p.1 ∧ 0 ≤ p.2) :
    ∃ q, weightedMean (parts.map pair) = .ok (.rational q) ∧ IsUnit q := by
  refine ⟨mean parts, embeds_rational.weightedMean parts, ?_, ?_⟩
  · exact le_mean (fun p hp => ⟨(hparts p hp).1.1, (hparts p hp).2⟩) (.inl le_rfl)
  · exact mean_le (fun p hp => ⟨(hparts p hp).1.2, (hparts p hp).2⟩) (.inl zero_le_one)

/-- A frequency that is not negative comes to lie between zero and one. -/
theorem normalize_isUnit {frequency x : Exact}
    (hf : frequency = .infinite false ∨ ∃ q, frequency = .rational q ∧ 0 ≤ q)
    (hx : Automation.normalize frequency = .ok x) : ∃ q, x = .rational q ∧ IsUnit q := by
  rcases hf with rfl | ⟨q, rfl, hq⟩
  · have hdiv : Exact.div (.infinite false) 20.0 = .infinite false := by
      show Exact.infinite (false != decide ((20.0 : ℚ) < 0)) = _
      norm_num
    have hdef : Automation.normalize (.infinite false) = (do
        let r ← Arithmetic.compare .lt 1.0 (Exact.div (.infinite false) 20.0)
        if r then .ok 1.0 else .ok (Exact.div (.infinite false) 20.0)) := rfl
    rw [hdef, hdiv] at hx
    obtain rfl := Except.ok.inj hx
    exact ⟨1.0, rfl, by norm_num [IsUnit]⟩
  · obtain rfl := Except.ok.inj ((embeds_rational.normalize q).symm.trans hx)
    exact ⟨min (q / 20) 1, rfl, le_min (by positivity) zero_le_one, min_le_right _ _⟩

end Exact

/-- What a value stands for; what is no number is NaN. -/
def Exact.ofValue (v : Value) : Exact := (Config.quantity? v).getD .nan

section
variable {α β : Type} (f : α → β)

def BackCasting.Settings.map (s : BackCasting.Settings α) : BackCasting.Settings β :=
  ⟨f s.endStateWeight, f s.marketWeight, f s.confidence, f s.priority⟩

def Coherence.Settings.map (s : Coherence.Settings α) : Coherence.Settings β :=
  ⟨f s.truthfulnessWeight, f s.systemWeight, f s.skillWeight, f s.veto, f s.approve, f s.review⟩

def Automation.Settings.map (s : Automation.Settings α) : Automation.Settings β :=
  ⟨f s.frequencyWeight, f s.standardizationWeight, f s.guardrailsWeight, f s.tippingPoint,
    f s.standardization, f s.automate⟩

end

/-- The score of a call when nothing is rounded. -/
def Behaviour.exactScore (b : Behaviour) (context : Value) : Option Exact :=
  match b with
  | .backCasting s => do
    let i ← (BackCastingInput.ofContext context).toOption
    let o ← (BackCasting.assess (s.map Exact.ofValue) (.ofDouble i.clarity)
      (.ofDouble i.alignment)).toOption
    some o.score
  | .coherence s => do
    let i ← (CoherenceInput.ofContext context).toOption
    let o ← (Coherence.assess (s.map Exact.ofValue) (.ofDouble i.truthfulness)
      (.ofDouble i.systemAdherence) (.ofDouble i.skill)).toOption
    some o.score
  | .automation s => do
    let i ← (AutomationInput.ofContext context).toOption
    let o ← (Automation.assess (s.map Exact.ofValue) (.ofDouble i.frequency)
      (.ofDouble i.standardizable) i.hasGuardrails).toOption
    some o.score
  | .custom _ => none

end DecisionGate
