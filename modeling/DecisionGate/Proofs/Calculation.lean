import DecisionGate.Proofs.Assessment
import DecisionGate.Proofs.Conversion

/-!
# Calculating with documents

A number of a document can be calculated with as soon as a double holds it. A sum of weights may
still fail: integers are added as integers, and what they come to has to become a double once a
double meets it.
-/
namespace DecisionGate

namespace Value

def IsDouble (v : Value) : Prop := ∃ x, v = .float x

/-- A number that a double can hold. -/
def IsConvertible (v : Value) : Prop := ∃ n x, v.number? = some n ∧ n.toDouble = .ok x

theorem IsDouble.isConvertible {v : Value} (h : v.IsDouble) : v.IsConvertible := by
  obtain ⟨x, rfl⟩ := h
  exact ⟨.float x, x, rfl, rfl⟩

theorem isConvertible_int {i : Int} (h : (Double.ofInt? i).isSome = true) :
    IsConvertible (.int i) := by
  obtain ⟨x, hx⟩ := Option.isSome_iff_exists.mp h
  exact ⟨.int i, x, rfl, by simp [Number.toDouble, hx]⟩

theorem gives_ofDoubles (f : Float → Float → Float) {m n : Number} {x y : Float}
    (hx : m.toDouble = .ok x) (hy : n.toDouble = .ok y) :
    Gives (Number.ofDoubles f m n) IsDouble := by
  refine ⟨.float (f x y), ?_, f x y, rfl⟩
  simp [Number.ofDoubles, hx, hy]

theorem gives_compare (c : Comparison) {v w : Value} (hv : v.IsConvertible)
    (hw : w.IsConvertible) : Gives (Value.compare c v w) fun _ => True := by
  obtain ⟨m, -, hm, -⟩ := hv
  obtain ⟨n, -, hn, -⟩ := hw
  exact ⟨_, by rw [Value.compare, hm, hn], trivial⟩

/-- Numbers of which one is a double are added, multiplied and divided as doubles. -/
theorem add_of_isDouble {v w : Value} {m n : Number} (hv : v.number? = some m)
    (hw : w.number? = some n) (h : v.IsDouble ∨ w.IsDouble) :
    Value.add v w = Number.ofDoubles (· + ·) m n := by
  simp only [Value.add, hv, hw]
  rcases h with ⟨x, rfl⟩ | ⟨x, rfl⟩
  · obtain rfl := Option.some.inj hv
    rfl
  · obtain rfl := Option.some.inj hw
    cases m <;> rfl

theorem mul_of_isDouble {v w : Value} {m n : Number} (hv : v.number? = some m)
    (hw : w.number? = some n) (h : v.IsDouble ∨ w.IsDouble) :
    Value.mul v w = Number.ofDoubles (· * ·) m n := by
  simp only [Value.mul, hv, hw]
  rcases h with ⟨x, rfl⟩ | ⟨x, rfl⟩
  · obtain rfl := Option.some.inj hv
    rfl
  · obtain rfl := Option.some.inj hw
    cases m <;> rfl

theorem div_of_isDouble {v w : Value} {m n : Number} (hv : v.number? = some m)
    (hw : w.number? = some n) (h : v.IsDouble) :
    Value.div v w = Number.ofDoubles (· / ·) m n := by
  obtain ⟨x, rfl⟩ := h
  obtain rfl := Option.some.inj hv
  simp only [Value.div, hw]
  rfl

theorem gives_add {v w : Value} (hv : v.IsConvertible) (hw : w.IsConvertible)
    (h : v.IsDouble ∨ w.IsDouble) : Gives (Value.add v w) IsDouble := by
  obtain ⟨m, x, hm, hx⟩ := hv
  obtain ⟨n, y, hn, hy⟩ := hw
  rw [add_of_isDouble hm hn h]
  exact gives_ofDoubles _ hx hy

theorem gives_mul {v w : Value} (hv : v.IsConvertible) (hw : w.IsConvertible)
    (h : v.IsDouble ∨ w.IsDouble) : Gives (Value.mul v w) IsDouble := by
  obtain ⟨m, x, hm, hx⟩ := hv
  obtain ⟨n, y, hn, hy⟩ := hw
  rw [mul_of_isDouble hm hn h]
  exact gives_ofDoubles _ hx hy

theorem gives_div {v w : Value} (hv : v.IsDouble) (hw : w.IsConvertible) :
    Gives (Value.div v w) IsDouble := by
  obtain ⟨m, x, hm, hx⟩ := hv.isConvertible
  obtain ⟨n, y, hn, hy⟩ := hw
  rw [div_of_isDouble hm hn hv]
  exact gives_ofDoubles _ hx hy

theorem isConvertible_zero : IsConvertible (.int 0) := isConvertible_int rfl

theorem tame_value : Tame IsConvertible IsDouble where
  number_zero := isConvertible_zero
  of_double h := h.isConvertible
  literal _ _ _ := ⟨_, rfl⟩
  compare c _ _ ha hb := gives_compare c ha hb
  mul ha hb := gives_mul ha.isConvertible hb (.inl ha)
  mul_double ha hb := gives_mul ha hb.isConvertible (.inr hb)
  add ha hb := gives_add ha.isConvertible hb.isConvertible (.inl ha)
  zero_add ha := gives_add isConvertible_zero ha.isConvertible (.inr ha)
  div ha hb := gives_div ha hb

/-- What a value adds to a sum of integers. -/
def integerPart : Value → Int
  | .int i => i
  | _ => 0

/-- The largest double. -/
def largest : ℚ := (2 ^ 53 - 1) * 2 ^ (971 : ℤ)

theorem isConvertible_of_le {i : Int} (h0 : 0 ≤ i) (h : (i : ℚ) ≤ largest) :
    IsConvertible (.int i) := by
  apply isConvertible_int
  apply Exact.ofInt_isSome
  rwa [abs_of_nonneg (by exact_mod_cast h0)]

/-- An integer that is not negative, or a double. -/
def IsSummand (v : Value) : Prop := (∃ i, v = .int i ∧ 0 ≤ i) ∨ v.IsDouble

theorem integerPart_nonneg {v : Value} (h : v.IsSummand) : 0 ≤ v.integerPart := by
  rcases h with ⟨i, rfl, hi⟩ | ⟨x, rfl⟩
  · exact hi
  · exact le_rfl

theorem IsSummand.isConvertible {v : Value} (h : v.IsSummand)
    (hle : (v.integerPart : ℚ) ≤ largest) : v.IsConvertible := by
  rcases h with ⟨i, rfl, hi⟩ | hx
  · exact isConvertible_of_le hi hle
  · exact hx.isConvertible

/-- A sum of summands is one, as long as the integers among them have a double. -/
theorem gives_add_summand {v w : Value} (hv : v.IsSummand) (hw : w.IsSummand)
    (hle : ((v.integerPart + w.integerPart : ℤ) : ℚ) ≤ largest) :
    Gives (Value.add v w) fun t =>
      t.IsSummand ∧ t.integerPart ≤ v.integerPart + w.integerPart := by
  have hv0 := integerPart_nonneg hv
  have hw0 := integerPart_nonneg hw
  have hv0' : (0 : ℚ) ≤ v.integerPart := by exact_mod_cast hv0
  have hw0' : (0 : ℚ) ≤ w.integerPart := by exact_mod_cast hw0
  push_cast at hle
  have hvc := hv.isConvertible (by linarith)
  have hwc := hw.isConvertible (by linarith)
  have hdouble : ∀ t : Value, t.IsDouble →
      t.IsSummand ∧ t.integerPart ≤ v.integerPart + w.integerPart := by
    rintro _ ⟨z, rfl⟩
    exact ⟨.inr ⟨z, rfl⟩, Int.add_nonneg hv0 hw0⟩
  rcases hv with ⟨i, rfl, hi⟩ | hvd
  · rcases hw with ⟨j, rfl, hj⟩ | hwd
    · exact ⟨.int (i + j), rfl, .inl ⟨i + j, rfl, Int.add_nonneg hi hj⟩, le_rfl⟩
    · exact (gives_add hvc hwc (.inr hwd)).mono hdouble
  · exact (gives_add hvc hwc (.inl hvd)).mono hdouble

theorem gives_total {ws : List Value} (hws : ∀ w ∈ ws, w.IsSummand)
    (hle : (((ws.map integerPart).sum : ℤ) : ℚ) ≤ largest) : Gives (total ws) IsConvertible := by
  have hfrom : ∀ a : Value, a.IsSummand →
      ((a.integerPart + (ws.map integerPart).sum : ℤ) : ℚ) ≤ largest →
      Gives (ws.foldlM Arithmetic.add a) IsConvertible := by
    clear hle
    induction ws with
    | nil =>
      intro a ha hle
      exact gives_ok (ha.isConvertible (by simpa using hle))
    | cons w ws ih =>
      intro a ha hle
      obtain ⟨hw, hrest⟩ := List.forall_mem_cons.mp hws
      have hrest0 : 0 ≤ (ws.map integerPart).sum :=
        List.sum_nonneg (by simpa using fun w hw => integerPart_nonneg (hrest w hw))
      have hrest0' : (0 : ℚ) ≤ ((ws.map integerPart).sum : ℤ) := by exact_mod_cast hrest0
      rw [List.map_cons, List.sum_cons, Int.cast_add, Int.cast_add] at hle
      refine (gives_add_summand ha hw (by rw [Int.cast_add]; linarith)).bind fun t ht => ?_
      refine ih hrest t ht.1 ?_
      have hstep : (t.integerPart : ℚ) ≤ a.integerPart + w.integerPart := by exact_mod_cast ht.2
      rw [Int.cast_add]
      linarith
  exact hfrom (.int 0) (.inl ⟨0, rfl, le_rfl⟩) (by simpa [integerPart] using hle)

end Value

end DecisionGate
