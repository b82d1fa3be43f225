import DecisionGate.Config.Check
import DecisionGate.Proofs.Conversion
import DecisionGate.Proofs.Results

/-!
# Sums near one

The check of a configuration adds two weights as doubles, takes one from the sum and compares what
is left with a double near a hundredth. Every step rounds, and still no sum gets through that is
more than a hundredth away from one: the two ends of the range round to doubles from which one is
taken exactly, and what is left is above the tolerance by more than a rounding.
-/
namespace DecisionGate.Exact

theorem lt_abs_clamp {c r : ℚ} (h : c < |r|) :
    (Exact.rational c).compare (clamp r).abs = some .lt := by
  unfold clamp
  split
  · exact congrArg some ((cmp_eq_lt_iff _ _).mpr h)
  · rfl

theorem parts_tolerance :
    Double.parts Config.tolerance = .finite false 5764607523034235 (-59) := by decide +kernel

theorem ofDouble_tolerance :
    ofDouble Config.tolerance = .rational (5764607523034235 * 2 ^ (-59 : ℤ)) := by
  rw [ofDouble, parts_tolerance]
  simp [ofParts]

theorem ofDouble_one : ofDouble 1.0 = .rational 1 := by
  have hparts : Double.parts 1.0 = .finite false (2 ^ 52) (-52) := by decide +kernel
  rw [ofDouble, hparts]
  norm_num [ofParts]

theorem ofDouble_half : ofDouble 0.5 = .rational (1 / 2) := by
  have hparts : Double.parts 0.5 = .finite false (2 ^ 52) (-53) := by decide +kernel
  rw [ofDouble, hparts]
  norm_num [ofParts]

/-- The least double above the tolerance. -/
theorem rounds_above_tolerance :
    Rounds (5764607523034236 * 2 ^ (-59 : ℤ)) 5764607523034236 (-59) :=
  rounds_canonical (m := 5764607523034236) (e := -59)
    ⟨by norm_num, by norm_num, .inl (by norm_num)⟩

/-- A hundredth too much, rounded. -/
theorem rounds_upper : Rounds (101 / 100) 4548635623644201 (-52) := by
  constructor <;> norm_num [abs_of_pos, abs_of_neg]

/-- A hundredth too little, rounded. -/
theorem rounds_lower : Rounds (99 / 100) 8917127262193582 (-53) := by
  constructor <;> norm_num [abs_of_pos, abs_of_neg]

theorem above_tolerance {q : ℚ} {n k : ℤ} (h : Rounds q n k)
    (hq : 5764607523034236 * 2 ^ (-59 : ℤ) < q) :
    5764607523034235 * 2 ^ (-59 : ℤ) < (n : ℚ) * 2 ^ k := by
  have hmono := rounds_above_tolerance.mono h hq
  rw [Int.cast_ofNat] at hmono
  refine lt_of_lt_of_le ?_ hmono
  gcongr
  norm_num

/-- What is not refused for its distance from one is a rounded number that is within a hundredth of
one. -/
theorem near_one {q : ℚ} {x : Float} (hx : Nearest q x)
    (h : ¬ (x - 1.0).abs > Config.tolerance) : |q - 1| ≤ 1 / 100 := by
  obtain ⟨n, k, hrounds, hx⟩ := hx
  rw [gt_iff_lt, float_lt_iff, ofDouble_tolerance, ofDouble_abs] at h
  by_contra hfar
  apply h
  by_cases hfits : |(n : ℚ) * 2 ^ k| < 2 ^ (1024 : ℤ)
  · rw [clamp, if_pos hfits] at hx
    obtain ⟨n', k', hrounds', hsub⟩ := nearest_sub hx ofDouble_one
    rw [hsub]
    apply lt_abs_clamp
    rcases lt_abs.mp (not_le.mp hfar) with hmore | hless
    · have hsum := rounds_upper.mono hrounds (by linarith)
      have hdistance := above_tolerance hrounds' (by norm_num at hsum ⊢; linarith)
      exact hdistance.trans_le (le_abs_self _)
    · have hsum := hrounds.mono rounds_lower (by linarith)
      have hdistance := above_tolerance hrounds'.neg (by norm_num at hsum ⊢; linarith)
      rw [Int.cast_neg, neg_mul] at hdistance
      exact hdistance.trans_le (neg_le_abs _)
  · rw [clamp, if_neg hfits] at hx
    rw [ofDouble_sub_of_infinite hx ofDouble_one]
    rfl

/-- A double is no other number than the integer it was, when it is so small that it may be a
weight. -/
theorem ofDouble_of_small {i : ℤ} (hi : 0 ≤ i) {x : Float} (h : Double.ofInt? i = some x) :
    ∃ r, ofDouble x = .rational r ∧ 0 ≤ r ∧ (r < 3 / 2 → r = i) := by
  have hzero : (Double.ofInt? 0).map Double.parts = some (.finite false 0 (-1074)) := by
    decide +kernel
  have hone : (Double.ofInt? 1).map Double.parts = some (.finite false (2 ^ 52) (-52)) := by
    decide +kernel
  rcases (show i = 0 ∨ i = 1 ∨ 2 ≤ i by omega) with rfl | rfl | hlarge
  · rw [h, Option.map_some, Option.some.injEq] at hzero
    refine ⟨0, ?_, le_rfl, by simp⟩
    rw [ofDouble, hzero]
    simp [ofParts]
  · rw [h, Option.map_some, Option.some.injEq] at hone
    refine ⟨1, ?_, one_pos.le, by simp⟩
    rw [ofDouble, hone]
    norm_num [ofParts]
  · obtain ⟨n, k, hrounds, hx⟩ := ofDouble_ofInt h
    have hstart : Rounds (3 / 2) (3 * 2 ^ 51) (-52) := by
      constructor <;> norm_num [abs_of_pos]
    have hi' : (2 : ℚ) ≤ i := by exact_mod_cast hlarge
    have hmono := hstart.mono hrounds (by linarith)
    norm_num at hmono
    exact ⟨_, hx, by linarith, fun hsmall => by linarith⟩

theorem ofDouble_toDouble_of_small {n : Number} {q : ℚ} {x : Float} (hn : ofNumber n = .rational q)
    (hq : 0 ≤ q) (h : n.toDouble = .ok x) :
    ∃ r, ofDouble x = .rational r ∧ 0 ≤ r ∧ (r < 3 / 2 → r = q) := by
  cases n with
  | float y =>
    obtain rfl := Except.ok.inj h
    exact ⟨q, hn, hq, fun _ => rfl⟩
  | int i =>
    obtain rfl := Exact.rational.inj hn
    cases hi : Double.ofInt? i with
    | none => simp [Number.toDouble, hi] at h
    | some y =>
      simp only [Number.toDouble, hi, Except.ok.injEq] at h
      subst h
      exact ofDouble_of_small (by exact_mod_cast hq) hi

theorem ofDoubles_eq_ok {f : Float → Float → Float} {m n : Number} {v : Value}
    (h : Number.ofDoubles f m n = .ok v) :
    ∃ x y, m.toDouble = .ok x ∧ n.toDouble = .ok y ∧ v = .float (f x y) := by
  obtain ⟨x, hx, hrest⟩ := bind_eq_ok.mp h
  obtain ⟨y, hy, hv⟩ := bind_eq_ok.mp hrest
  exact ⟨x, y, hx, hy, (Except.ok.inj hv).symm⟩

/-- Only two integers are added as integers. -/
theorem add_eq_ok {m n : Number} {v : Value} (h : m.add n = .ok v) :
    (∃ i j, m = .int i ∧ n = .int j ∧ v = .int (i + j)) ∨
      ∃ x y, m.toDouble = .ok x ∧ n.toDouble = .ok y ∧ v = .float (x + y) := by
  cases m with
  | float x => exact .inr (ofDoubles_eq_ok h)
  | int i =>
    cases n with
    | float y => exact .inr (ofDoubles_eq_ok h)
    | int j => exact .inl ⟨i, j, rfl, rfl, (Except.ok.inj h).symm⟩

/-- Two weights whose sum is not refused are within a hundredth of one together. -/
theorem weights_near_one {m n t : Number} {p q : ℚ} {total : Value} {x : Float}
    (hm : ofNumber m = .rational p) (hn : ofNumber n = .rational q) (hp : 0 ≤ p) (hq : 0 ≤ q)
    (hadd : m.add n = .ok total) (ht : total.number? = some t) (hx : t.toDouble = .ok x)
    (h : ¬ (x - 1.0).abs > Config.tolerance) : |p + q - 1| ≤ 1 / 100 := by
  rcases add_eq_ok hadd with ⟨i, j, rfl, rfl, rfl⟩ | ⟨y, z, hy, hz, rfl⟩
  · obtain rfl := Exact.rational.inj hm
    obtain rfl := Exact.rational.inj hn
    obtain rfl : Number.int (i + j) = t := Option.some.inj ht
    exact near_one (nearest_toDouble (by simp [ofNumber]) hx) h
  · obtain rfl : Number.float (y + z) = t := Option.some.inj ht
    obtain rfl : y + z = x := Except.ok.inj hx
    obtain ⟨r, hr, hr0, hp'⟩ := ofDouble_toDouble_of_small hm hp hy
    obtain ⟨s, hs, hs0, hq'⟩ := ofDouble_toDouble_of_small hn hq hz
    have hnear := near_one (nearest_add hr hs) h
    have hhigh := (abs_le.mp hnear).2
    rwa [hp' (by linarith), hq' (by linarith)] at hnear

/-- A number that is neither NaN nor below zero is a number of the line, or infinity. -/
theorem rational_or_infinite {n : Number} (hnan : ofNumber n ≠ .nan)
    (hlow : n.compare .lt (.int 0) = false) :
    ofNumber n = .infinite false ∨ ∃ q, ofNumber n = .rational q := by
  cases hn : ofNumber n with
  | nan => exact absurd hn hnan
  | infinite negative =>
    cases negative with
    | false => exact .inl rfl
    | true =>
      simp only [Number.compare, order_eq, hn] at hlow
      simp [ofNumber, Exact.compare, Comparison.holds] at hlow
  | rational q => exact .inr ⟨q, rfl⟩

theorem ofDouble_toDouble_cases {n : Number} {x : Float} (h : n.toDouble = .ok x)
    (hn : ofNumber n = .infinite false ∨ ∃ q, ofNumber n = .rational q) :
    ofDouble x = .infinite false ∨ ∃ q, ofDouble x = .rational q := by
  cases n with
  | float y =>
    obtain rfl := Except.ok.inj h
    exact hn
  | int i =>
    cases hi : Double.ofInt? i with
    | none => simp [Number.toDouble, hi] at h
    | some y =>
      simp only [Number.toDouble, hi, Except.ok.injEq] at h
      subst h
      obtain ⟨_, _, -, hy⟩ := ofDouble_ofInt hi
      exact .inr ⟨_, hy⟩

theorem ofDouble_toDouble_infinite {n : Number} {x : Float} (h : n.toDouble = .ok x)
    (hn : ofNumber n = .infinite false) : ofDouble x = .infinite false := by
  cases n with
  | float y =>
    obtain rfl := Except.ok.inj h
    exact hn
  | int i => simp [ofNumber] at hn

/-- An infinite sum is refused for its distance from one. -/
theorem far_of_infinite {x : Float} (hx : ofDouble x = .infinite false) :
    (x - 1.0).abs > Config.tolerance := by
  rw [gt_iff_lt, float_lt_iff, ofDouble_tolerance, ofDouble_abs,
    ofDouble_sub_of_infinite hx ofDouble_one]
  rfl

/-- Two weights whose sum is not refused are finite, if neither is NaN. -/
theorem weights_finite {m n t : Number} {total : Value} {x : Float}
    (hm : ofNumber m = .infinite false ∨ ∃ q, ofNumber m = .rational q)
    (hn : ofNumber n = .infinite false ∨ ∃ q, ofNumber n = .rational q)
    (hadd : m.add n = .ok total) (ht : total.number? = some t) (hx : t.toDouble = .ok x)
    (h : ¬ (x - 1.0).abs > Config.tolerance) :
    (∃ p, ofNumber m = .rational p) ∧ ∃ q, ofNumber n = .rational q := by
  rcases add_eq_ok hadd with ⟨i, j, rfl, rfl, rfl⟩ | ⟨y, z, hy, hz, rfl⟩
  · exact ⟨⟨i, rfl⟩, j, rfl⟩
  · obtain rfl : Number.float (y + z) = t := Option.some.inj ht
    obtain rfl : y + z = x := Except.ok.inj hx
    have hycases := ofDouble_toDouble_cases hy hm
    have hzcases := ofDouble_toDouble_cases hz hn
    constructor
    · refine hm.resolve_left fun hinfinite => h (far_of_infinite ?_)
      exact (ofDouble_add_of_infinite (ofDouble_toDouble_infinite hy hinfinite) hzcases).1
    · refine hn.resolve_left fun hinfinite => h (far_of_infinite ?_)
      exact (ofDouble_add_of_infinite (ofDouble_toDouble_infinite hz hinfinite) hycases).2

end DecisionGate.Exact
