import DecisionGate.Proofs.ExactScore

/-!
# The scoring rules over the rationals

Over the rational numbers no operation fails, and a comparison is the order. A weighted mean is the
quotient of two sums, or zero when the weights do not sum to anything, and with weights that are not
negative it goes up with each of its values.
-/
namespace DecisionGate

open Arithmetic

@[simp] theorem literal_rat (m : ℕ) (s : Bool) (e : ℕ) :
    @OfScientific.ofScientific ℚ Arithmetic.toOfScientific m s e =
      @OfScientific.ofScientific ℚ Rat.instOfScientific m s e := rfl

@[simp] theorem add_rat (a b : ℚ) : Arithmetic.add a b = .ok (a + b) := rfl

@[simp] theorem mul_rat (a b : ℚ) : Arithmetic.mul a b = .ok (a * b) := rfl

@[simp] theorem compare_rat (c : Comparison) (a b : ℚ) :
    Arithmetic.compare c a b = .ok (match c with
      | .lt => decide (a < b)
      | .le => decide (a ≤ b)
      | .gt => decide (b < a)
      | .ge => decide (b ≤ a)) := by
  show Except.ok (c.holds (if a < b then .lt else if a = b then .eq else .gt)) = _
  rcases lt_trichotomy a b with h | h | h
  · cases c <;> simp [Comparison.holds, h, h.le, h.not_gt, h.not_ge]
  · cases c <;> simp [Comparison.holds, h]
  · cases c <;> simp [Comparison.holds, h, h.le, h.not_gt, h.not_ge, h.ne']

theorem tame_rat : Tame (fun _ : ℚ => True) (fun _ => True) where
  number_zero := trivial
  of_double _ := trivial
  literal _ _ _ := trivial
  compare c a b _ _ := compare_rat c a b ▸ gives_ok trivial
  mul _ _ := gives_ok trivial
  mul_double _ _ := gives_ok trivial
  add _ _ := gives_ok trivial
  zero_add _ := gives_ok trivial
  div _ _ := gives_ok trivial

theorem embeds_rat : Embeds (id : ℚ → ℚ) where
  zero := rfl
  literal _ _ _ := rfl
  add _ _ := rfl
  mul _ _ := rfl
  div _ _ _ := rfl
  le := compare_rat .le
  lt := compare_rat .lt

theorem total_rat (ws : List ℚ) : total ws = .ok ws.sum := by
  simpa using embeds_rat.total ws

@[simp] theorem weightedMean_rat (parts : List (ℚ × ℚ)) :
    weightedMean parts = .ok (mean parts) := by
  simpa using embeds_rat.weightedMean parts

/-- Two lists of values under the same weights, none of which is negative; the values of the second
list are not below those of the first. -/
abbrev Raised : List (ℚ × ℚ) → List (ℚ × ℚ) → Prop :=
  List.Forall₂ fun p q => p.1 ≤ q.1 ∧ p.2 = q.2 ∧ 0 ≤ p.2

theorem Raised.weights {parts parts' : List (ℚ × ℚ)} (h : Raised parts parts') :
    parts.map Prod.snd = parts'.map Prod.snd := by
  induction h with
  | nil => rfl
  | cons hp _ ih => rw [List.map_cons, List.map_cons, hp.2.1, ih]

theorem Raised.sum_le {parts parts' : List (ℚ × ℚ)} (h : Raised parts parts') :
    (parts.map fun p => p.1 * p.2).sum ≤ (parts'.map fun p => p.1 * p.2).sum := by
  induction h with
  | nil => rfl
  | @cons p q _ _ hp _ ih =>
    have hhead : p.1 * p.2 ≤ q.1 * q.2 := by
      rw [← hp.2.1]
      exact mul_le_mul_of_nonneg_right hp.1 hp.2.2
    rw [List.map_cons, List.map_cons, List.sum_cons, List.sum_cons]
    exact add_le_add hhead ih

/-- A weighted mean goes up with its values. -/
theorem Raised.mean_le {parts parts' : List (ℚ × ℚ)} (h : Raised parts parts') :
    mean parts ≤ mean parts' := by
  unfold mean
  rw [← h.weights]
  split
  · rfl
  · next hpos =>
    have hweight : 0 ≤ (parts.map Prod.snd).sum := (not_le.mp hpos).le
    exact div_le_div_of_nonneg_right h.sum_le hweight

/-- The rational number that a value stands for, if it is a finite number. -/
def Value.rational? (v : Value) : Option ℚ :=
  match v.number?.map Exact.ofNumber with
  | some (.rational q) => some q
  | _ => none

end DecisionGate
