import DecisionGate.Proofs.Exact

/-!
# Sums of doubles

The sum and the difference of two doubles are the exact ones, rounded to fifty-three bits and cut
off where doubles end. Rounding keeps the order, so what is known of an exact sum is known of the
rounded one.
-/
namespace DecisionGate.Exact

open Float.Model Float.Model.UnpackedFloat

/-- `n * 2 ^ k` is a rational number rounded to fifty-three bits, a half either way, as if there
were no greatest exponent. -/
structure Rounds (q : ℚ) (n k : ℤ) : Prop where
  error : 2 * |n * 2 ^ k - q| ≤ 2 ^ k
  lt : |q| < 2 ^ (53 + k)
  least : -1074 ≤ k
  normal : 2 ^ (52 + k) ≤ |q| ∨ k = -1074

theorem Rounds.neg {q : ℚ} {n k : ℤ} (h : Rounds q n k) : Rounds (-q) (-n) k where
  error := by
    have hsame : ((-n : ℤ) : ℚ) * 2 ^ k - -q = -(n * 2 ^ k - q) := by
      push_cast
      ring
    rw [hsame, abs_neg]
    exact h.error
  lt := by rw [abs_neg]; exact h.lt
  least := h.least
  normal := by rw [abs_neg]; exact h.normal

/-- A number that has the fifty-three bits is not rounded. -/
theorem rounds_canonical {m : Nat} {e : Int} (h : Canonical m e) : Rounds (m * 2 ^ e) m e := by
  have hpos : (0 : ℚ) < 2 ^ e := by positivity
  have habs : |(m : ℚ) * 2 ^ e| = m * 2 ^ e := abs_of_nonneg (by positivity)
  refine ⟨by simp [hpos.le], ?_, h.least, h.normal.imp_left fun hm => ?_⟩
  · have hm : (m : ℚ) < 2 ^ 53 := by exact_mod_cast h.lt
    rw [habs, zpow_add₀ two_ne_zero]
    exact mul_lt_mul_of_pos_right hm hpos
  · have hm : (2 : ℚ) ^ 52 ≤ m := by exact_mod_cast hm
    rw [habs, zpow_add₀ two_ne_zero]
    exact mul_le_mul_of_nonneg_right hm hpos.le

theorem rounds_zero : Rounds 0 0 (-1074) := by
  simpa using rounds_canonical (m := 0) (e := -1074) ⟨by norm_num, le_rfl, .inr rfl⟩

/-- A rounded integer is an integer: a unit below one rounds nothing. -/
theorem Rounds.integral {i n k : ℤ} (h : Rounds i n k) : ∃ r : ℤ, (n * 2 ^ k : ℚ) = r := by
  rcases le_total 0 k with hk | hk
  · obtain ⟨j, rfl⟩ := Int.eq_ofNat_of_zero_le hk
    exact ⟨n * 2 ^ j, by push_cast; rfl⟩
  · obtain ⟨j, hj⟩ := Int.eq_ofNat_of_zero_le (show 0 ≤ -k by omega)
    obtain rfl : k = -(j : ℤ) := by omega
    refine ⟨i, ?_⟩
    have hunit : (0 : ℚ) < 2 ^ j := by positivity
    have herror := h.error
    rw [zpow_neg, zpow_natCast] at herror ⊢
    have hscaled : 2 * |(n : ℚ) - i * 2 ^ j| ≤ 1 := by
      have hsame : (n : ℚ) * (2 ^ j)⁻¹ - i = (n - i * 2 ^ j) * (2 ^ j)⁻¹ := by field_simp
      rw [hsame, abs_mul, abs_of_pos (inv_pos.mpr hunit), ← mul_assoc] at herror
      simpa using (mul_le_mul_iff_left₀ (inv_pos.mpr hunit)).mp (herror.trans_eq (one_mul _).symm)
    have hexact : n = i * 2 ^ j := by
      have hint : 2 * |n - i * 2 ^ j| ≤ 1 := by exact_mod_cast hscaled
      have hzero : |n - i * 2 ^ j| = 0 := by
        have := abs_nonneg (n - i * 2 ^ j)
        omega
      linarith [abs_eq_zero.mp hzero]
    rw [hexact]
    push_cast
    field_simp

section
variable {q q' : ℚ} {n k n' k' : ℤ}

/-- Rounding does not leave the binade upwards but for its end. -/
theorem Rounds.le_end (h : Rounds q n k) : n ≤ 2 ^ 53 := by
  have hpos : (0 : ℚ) < 2 ^ k := by positivity
  have herror := (abs_le.mp (show |n * 2 ^ k - q| ≤ 2 ^ k / 2 by linarith [h.error])).2
  have hq := (abs_lt.mp h.lt).2
  rw [zpow_add₀ two_ne_zero] at hq
  have hn : (n : ℚ) < 2 ^ 53 + 1 := by
    refine lt_of_mul_lt_mul_right ?_ hpos.le
    norm_num at hq ⊢
    linarith
  have hn : n < 2 ^ 53 + 1 := by exact_mod_cast hn
  omega

/-- Rounding does not leave the binade downwards. -/
theorem Rounds.start_le (h : Rounds q n k) (hq : 2 ^ (52 + k) ≤ q) : 2 ^ 52 ≤ n := by
  have hpos : (0 : ℚ) < 2 ^ k := by positivity
  have herror := (abs_le.mp (show |n * 2 ^ k - q| ≤ 2 ^ k / 2 by linarith [h.error])).1
  rw [zpow_add₀ two_ne_zero] at hq
  have hn : (2 : ℚ) ^ 52 - 1 < n := by
    refine lt_of_mul_lt_mul_right ?_ hpos.le
    norm_num at hq ⊢
    linarith
  have hn : (2 : ℤ) ^ 52 - 1 < n := by exact_mod_cast hn
  omega

theorem Rounds.mono_of_lt (h : Rounds q n k) (h' : Rounds q' n' k') (hq : q < q') (hk : k < k') :
    (n : ℚ) * 2 ^ k ≤ n' * 2 ^ k' := by
  have hleast := h.least
  have hnormal := h'.normal.resolve_right (by omega)
  have hbinades : (2 : ℚ) ^ (53 + k) ≤ 2 ^ (52 + k') := zpow_le_zpow_right₀ one_le_two (by omega)
  have hq' : 2 ^ (52 + k') ≤ q' := by
    rcases le_abs'.mp hnormal with hneg | hpos
    · have hlow := (abs_lt.mp h.lt).1
      linarith
    · exact hpos
  have hn : (n : ℚ) ≤ 2 ^ 53 := by exact_mod_cast h.le_end
  have hn' : (2 : ℚ) ^ 52 ≤ n' := by exact_mod_cast h'.start_le hq'
  calc (n : ℚ) * 2 ^ k ≤ 2 ^ 53 * 2 ^ k := by gcongr
    _ = 2 ^ (53 + k) := by rw [zpow_add₀ two_ne_zero]; rfl
    _ ≤ 2 ^ (52 + k') := hbinades
    _ = 2 ^ 52 * 2 ^ k' := by rw [zpow_add₀ two_ne_zero]; rfl
    _ ≤ n' * 2 ^ k' := by gcongr

/-- Rounding keeps the order. -/
theorem Rounds.mono (h : Rounds q n k) (h' : Rounds q' n' k') (hq : q < q') :
    (n : ℚ) * 2 ^ k ≤ n' * 2 ^ k' := by
  rcases lt_trichotomy k k' with hk | rfl | hk
  · exact h.mono_of_lt h' hq hk
  · have hpos : (0 : ℚ) < 2 ^ k := by positivity
    have herror := (abs_le.mp (show |n * 2 ^ k - q| ≤ 2 ^ k / 2 by linarith [h.error])).2
    have herror' := (abs_le.mp (show |n' * 2 ^ k - q'| ≤ 2 ^ k / 2 by linarith [h'.error])).1
    have hn : (n : ℚ) < n' + 1 := by
      refine lt_of_mul_lt_mul_right ?_ hpos.le
      linarith
    have hn : n < n' + 1 := by exact_mod_cast hn
    have hle : (n : ℚ) ≤ n' := by exact_mod_cast Int.lt_add_one_iff.mp hn
    gcongr
  · have hneg := h'.neg.mono_of_lt h.neg (neg_lt_neg hq) hk
    push_cast at hneg
    linarith

end

/-- Where a number lies above a mantissa, as the round bit and the sticky bit have it. -/
def Locates (a : ExtendedMantissa) (x : ℚ) : Prop :=
  match a.roundBit, a.stickyBit with
  | false, false => x = a.mantissa
  | false, true => a.mantissa < x ∧ x < a.mantissa + 1 / 2
  | true, false => x = a.mantissa + 1 / 2
  | true, true => a.mantissa + 1 / 2 < x ∧ x < a.mantissa + 1

theorem Locates.shiftRightOne {a : ExtendedMantissa} {x : ℚ} (h : Locates a x) :
    Locates a.shiftRightOne (x / 2) := by
  obtain ⟨m, roundBit, stickyBit⟩ := a
  have hm : (m : ℚ) = 2 * (m / 2 : ℕ) + (m % 2 : ℕ) := by exact_mod_cast (Nat.div_add_mod m 2).symm
  rcases Nat.mod_two_eq_zero_or_one m with hbit | hbit <;> rw [hbit] at hm <;>
    cases roundBit <;> cases stickyBit <;>
    simp only [Locates, ExtendedMantissa.shiftRightOne, hbit] at h ⊢ <;>
    grind

theorem Locates.shiftRight {a : ExtendedMantissa} {x : ℚ} (h : Locates a x) (j : Nat) :
    Locates (a >>> j) (x / 2 ^ j) := by
  show Locates (j.repeat ExtendedMantissa.shiftRightOne a) _
  induction j with
  | zero => simpa [Nat.repeat] using h
  | succ j ih =>
    rw [Nat.repeat, pow_succ, ← div_div]
    exact ih.shiftRightOne

theorem Locates.error {a : ExtendedMantissa} {x : ℚ} (h : Locates a x) :
    2 * |(a.roundedMantissa : ℚ) - x| ≤ 1 := by
  obtain ⟨m, roundBit, stickyBit⟩ := a
  have hparity : ((m % 2 : ℕ) : ℚ) ≤ 1 := by exact_mod_cast Nat.le_of_lt_succ (Nat.mod_lt m two_pos)
  cases roundBit <;> cases stickyBit <;>
    simp only [Locates, ExtendedMantissa.roundedMantissa, ExtendedMantissa.accuracy,
      Accuracy.roundToNearestEven] at h ⊢ <;>
    grind

theorem targetExponent_eq (m : Nat) (e : Int) :
    Format.binary64.targetExponent (totalExponent m e) = max (m.log2 + e - 52) (-1074) := by
  simp only [Format.targetExponent, totalExponent]
  show max ((m.log2 : Int) + 1 + e - 53) (-1074) = _
  omega

/-- A number in canonical form has its exponent already. -/
theorem targetExponent_canonical {m : Nat} {e : Int} (h : Canonical m e) :
    Format.binary64.targetExponent (totalExponent m e) ≤ e := by
  have hleast := h.least
  have hlog : m.log2 ≤ 52 := by
    rcases Nat.eq_zero_or_pos m with rfl | hm
    · decide
    · exact Nat.le_of_lt_succ ((Nat.log2_lt hm.ne').mpr h.lt)
  rw [targetExponent_eq]
  omega

theorem shiftToTargetExponent_canonical {m : Nat} {e : Int} (h : Canonical m e) :
    shiftToTargetExponent .binary64 m e .exact = (⟨m, false, false⟩, e) := by
  have hshift : (Format.binary64.targetExponent (totalExponent m e) - e).toNat = 0 := by
    have := targetExponent_canonical h
    omega
  simp only [shiftToTargetExponent, shiftToExponent, hshift]
  exact Prod.ext rfl (Int.add_zero e)

theorem shiftToTargetExponent_carry {e : Int} (he : -1074 ≤ e) :
    shiftToTargetExponent .binary64 (2 ^ 53) e .exact = (⟨2 ^ 52, false, false⟩, e + 1) := by
  have hshift : (Format.binary64.targetExponent (totalExponent (2 ^ 53) e) - e).toNat = 1 := by
    rw [targetExponent_eq, Nat.log2_two_pow]
    omega
  simp only [shiftToTargetExponent, shiftToExponent, hshift]
  rfl

theorem magnitude_lt_limit {m : Nat} {e : Int} (h : Canonical m e) (he : e ≤ 971) :
    (m : ℚ) * 2 ^ e < 2 ^ (1024 : ℤ) := by
  have hm : (m : ℚ) < 2 ^ (53 : ℤ) := by exact_mod_cast h.lt
  calc (m : ℚ) * 2 ^ e < 2 ^ (53 : ℤ) * 2 ^ e := by gcongr
    _ ≤ 2 ^ (53 : ℤ) * 2 ^ (971 : ℤ) := by gcongr; norm_num
    _ = 2 ^ (1024 : ℤ) := (zpow_add₀ two_ne_zero 53 971).symm

/-- A rational number as far as doubles reach. -/
def clamp (r : ℚ) : Exact := if |r| < 2 ^ (1024 : ℤ) then .rational r else .infinite (r < 0)

/-- A double is what a rational number is rounded to. -/
def Nearest (q : ℚ) (x : Float) : Prop :=
  ∃ n k : ℤ, Rounds q n k ∧ ofDouble x = clamp (n * 2 ^ k)

theorem ofDouble_pack_finite (s : Sign) {m : Nat} {e : Int} (hm : 0 < m) (h : Canonical m e) :
    ofDouble (.ofModel (.pack (.finite s m e hm))) = clamp ((s.apply m : ℤ) * 2 ^ e) := by
  have hpos : (0 : ℚ) < m * 2 ^ e := by positivity
  have habs : |((s.apply m : ℤ) : ℚ) * 2 ^ e| = m * 2 ^ e := by
    cases s <;> simp [Sign.apply]
  have hfits : (m : ℚ) * 2 ^ e < 2 ^ (1024 : ℤ) ↔ e ≤ 971 := by
    constructor
    · intro hsmall
      by_contra he
      have he : 972 ≤ e := by omega
      have hnormal : (2 : ℚ) ^ (52 : ℤ) ≤ m := by exact_mod_cast h.normal.resolve_right (by omega)
      have hlarge : (2 : ℚ) ^ (1024 : ℤ) ≤ m * 2 ^ e := by
        calc (2 : ℚ) ^ (1024 : ℤ) = 2 ^ (52 : ℤ) * 2 ^ (972 : ℤ) := (zpow_add₀ two_ne_zero 52 972)
          _ ≤ m * 2 ^ e := by gcongr; norm_num
      exact absurd hsmall (not_lt.mpr hlarge)
    · exact magnitude_lt_limit h
  rw [ofDouble, parts_pack_finite s hm h, clamp, habs]
  by_cases he : e ≤ 971
  · rw [if_pos he, if_pos (hfits.mpr he)]
    cases s <;> simp [ofParts, Sign.apply, isNegative]
  · rw [if_neg he, if_neg (mt hfits.mp he)]
    cases s <;> simp [ofParts, Sign.apply, isNegative, hpos, hpos.le]

theorem rounds_shiftToTargetExponent {m : Nat} (hm : 0 < m) {e : Int}
    (he : e ≤ Format.binary64.targetExponent (totalExponent m e)) :
    Rounds (m * 2 ^ e) (shiftToTargetExponent .binary64 m e .exact).1.roundedMantissa
      (shiftToTargetExponent .binary64 m e .exact).2 := by
  obtain ⟨t, ht⟩ : ∃ t, t = Format.binary64.targetExponent (totalExponent m e) := ⟨_, rfl⟩
  obtain ⟨j, hj⟩ := Int.eq_ofNat_of_zero_le (show 0 ≤ t - e by omega)
  have hexponent : (shiftToTargetExponent .binary64 m e .exact).2 = t := by
    simp only [shiftToTargetExponent, shiftToExponent, ← ht]
    omega
  have hstart : Locates (.ofMantissaAndAccuracy m .exact) m := rfl
  have hlocates : Locates (shiftToTargetExponent .binary64 m e .exact).1 (m / 2 ^ j) := by
    simp only [shiftToTargetExponent, shiftToExponent, ← ht, hj]
    exact hstart.shiftRight j
  have hscale : (2 : ℚ) ^ t = 2 ^ e * 2 ^ j := by
    rw [← zpow_natCast, ← zpow_add₀ two_ne_zero]
    congr 1
    omega
  have hpos : (0 : ℚ) < 2 ^ t := by positivity
  have habs : |(m : ℚ) * 2 ^ e| = m * 2 ^ e := abs_of_nonneg (by positivity)
  have htarget := ht.trans (targetExponent_eq m e)
  rw [hexponent]
  refine ⟨?_, ?_, by omega, ?_⟩
  · have herror := mul_le_mul_of_nonneg_right hlocates.error hpos.le
    generalize (shiftToTargetExponent .binary64 m e .exact).1.roundedMantissa = n at herror ⊢
    have hsame : (n : ℚ) * 2 ^ t - m * 2 ^ e = (n - m / 2 ^ j) * 2 ^ t := by
      rw [hscale]
      field_simp
    rw [Int.cast_natCast, hsame, abs_mul, abs_of_pos hpos, ← mul_assoc]
    simpa using herror
  · have hm' : (m : ℚ) < 2 ^ ((m.log2 : ℤ) + 1) := by
      exact_mod_cast Nat.lt_log2_self
    calc |(m : ℚ) * 2 ^ e| = m * 2 ^ e := habs
      _ < 2 ^ ((m.log2 : ℤ) + 1) * 2 ^ e := by gcongr
      _ = 2 ^ ((m.log2 : ℤ) + 1 + e) := (zpow_add₀ two_ne_zero _ _).symm
      _ ≤ 2 ^ (53 + t) := zpow_le_zpow_right₀ one_le_two (by omega)
  · by_cases hleast : t = -1074
    · exact .inr hleast
    · left
      have hm' : (2 : ℚ) ^ (m.log2 : ℤ) ≤ m := by exact_mod_cast Nat.log2_self_le hm.ne'
      calc (2 : ℚ) ^ (52 + t) = 2 ^ ((m.log2 : ℤ) + e) := by congr 1; omega
        _ = 2 ^ (m.log2 : ℤ) * 2 ^ e := zpow_add₀ two_ne_zero _ _
        _ ≤ m * 2 ^ e := by gcongr
        _ = |(m : ℚ) * 2 ^ e| := habs.symm

theorem clamp_zero : clamp 0 = .rational 0 := by
  rw [clamp, abs_zero, if_pos (by positivity)]

theorem ofDouble_roundWithAccuracy (s : Sign) {m : Nat} (hm : 0 < m) {e : Int}
    (he : e ≤ Format.binary64.targetExponent (totalExponent m e)) :
    ∃ (n : ℕ) (k : ℤ), Rounds (m * 2 ^ e) n k ∧
      ofDouble (.ofModel (.pack (roundWithAccuracy .binary64 s m e .exact))) =
        clamp ((s.apply n : ℤ) * 2 ^ k) := by
  have hrounds := rounds_shiftToTargetExponent hm he
  cases hfirst : shiftToTargetExponent .binary64 m e .exact with
  | mk a k =>
    rw [hfirst] at hrounds
    generalize hn : a.roundedMantissa = n at hrounds
    refine ⟨n, k, hrounds, ?_⟩
    have hle : n ≤ 2 ^ 53 := by exact_mod_cast hrounds.le_end
    rcases hle.lt_or_eq with hlt | rfl
    · have hcanonical : Canonical n k := by
        refine ⟨hlt, hrounds.least, hrounds.normal.imp_left fun hnormal => ?_⟩
        rw [abs_of_nonneg (by positivity)] at hnormal
        exact_mod_cast hrounds.start_le hnormal
      simp only [roundWithAccuracy, hfirst, hn, shiftToTargetExponent_canonical hcanonical]
      split
      · next hz => rw [ofDouble_pack_zero, hz]; cases s <;> simp [Sign.apply, clamp_zero]
      · next hz => exact ofDouble_pack_finite s _ hcanonical
    · have hcanonical : Canonical (2 ^ 52) (k + 1) :=
        ⟨by norm_num, by have := hrounds.least; omega, .inl le_rfl⟩
      simp only [roundWithAccuracy, hfirst, hn, shiftToTargetExponent_carry hrounds.least]
      rw [dif_neg (by norm_num), ofDouble_pack_finite s _ hcanonical, zpow_add_one₀ two_ne_zero]
      congr 1
      cases s <;> simp [Sign.apply] <;> ring

theorem ofDouble_round (s : Sign) {m : Nat} (hm : 0 < m) (e : Int) :
    ∃ (n : ℕ) (k : ℤ), Rounds (m * 2 ^ e) n k ∧
      ofDouble (.ofModel (.pack (UnpackedFloat.round .binary64 s m e))) =
        clamp ((s.apply n : ℤ) * 2 ^ k) := by
  obtain ⟨t, ht⟩ : ∃ t, t = Format.binary64.targetExponent (totalExponent m e) := ⟨_, rfl⟩
  obtain ⟨j, hj⟩ : ∃ j, j = (e - t).toNat := ⟨_, rfl⟩
  have hround : UnpackedFloat.round .binary64 s m e =
      roundWithAccuracy .binary64 s (m * 2 ^ j) (e - j) .exact := by
    simp only [UnpackedFloat.round, decreaseExponent, ← ht, ← hj, Nat.shiftLeft_eq]
  have hlog : (m * 2 ^ j).log2 = m.log2 + j := by
    rw [Nat.log2_eq_iff (by positivity)]
    obtain ⟨hlow, hhigh⟩ := (Nat.log2_eq_iff hm.ne').mp rfl
    constructor
    · rw [pow_add]
      gcongr
    · rw [add_right_comm, pow_add]
      gcongr
  have htarget : Format.binary64.targetExponent (totalExponent (m * 2 ^ j) (e - j)) = t := by
    rw [ht, targetExponent_eq, targetExponent_eq, hlog]
    push_cast
    congr 1
    omega
  have hvalue : ((m * 2 ^ j : ℕ) : ℚ) * 2 ^ (e - j) = m * 2 ^ e := by
    push_cast
    rw [zpow_sub₀ two_ne_zero, zpow_natCast]
    field_simp
  rw [hround, ← hvalue]
  exact ofDouble_roundWithAccuracy s (by positivity) (by omega)

theorem nearest_normalize (M e : ℤ) (s : Sign) :
    Nearest (M * 2 ^ e) (.ofModel (.pack (UnpackedFloat.normalize .binary64 M e s))) := by
  unfold UnpackedFloat.normalize
  rcases lt_trichotomy M 0 with hM | rfl | hM
  · obtain ⟨m, hm⟩ := Int.eq_ofNat_of_zero_le (show 0 ≤ -M by omega)
    obtain ⟨n, k, hrounds, hvalue⟩ := ofDouble_round .negative (show 0 < m by omega) e
    refine ⟨-n, k, ?_, ?_⟩
    · have hneg := hrounds.neg
      have hsame : (M : ℚ) * 2 ^ e = -(m * 2 ^ e) := by
        have hcast : (M : ℚ) = -m := by exact_mod_cast (show M = -m by omega)
        rw [hcast, neg_mul]
      rwa [hsame]
    · rw [compare_lt_iff_lt.mpr hM, hm]
      exact hvalue
  · refine ⟨0, -1074, ?_, ?_⟩
    · simpa using rounds_zero
    · rw [compare_eq_iff_eq.mpr rfl]
      simp [ofDouble_pack_zero, clamp_zero]
  · obtain ⟨m, rfl⟩ := Int.eq_ofNat_of_zero_le hM.le
    obtain ⟨n, k, hrounds, hvalue⟩ := ofDouble_round .positive (show 0 < m by omega) e
    refine ⟨n, k, hrounds, ?_⟩
    rw [compare_gt_iff_gt.mpr hM]
    exact hvalue

theorem apply_neg (s : Sign) (n : ℤ) : (-s).apply n = -s.apply n := by
  cases s with
  | negative => exact (neg_neg n).symm
  | positive => rfl

theorem unpacked_sub_eq (u v : UnpackedFloat) :
    UnpackedFloat.sub .binary64 u v = UnpackedFloat.add .binary64 u v.neg := by
  cases u with
  | notANumber => rfl
  | infinity s => cases v <;> rfl
  | zero s => cases v <;> rfl
  | finite s m e h =>
    cases v with
    | finite s' m' e' h' =>
      simp only [UnpackedFloat.sub, UnpackedFloat.add, UnpackedFloat.neg, apply_neg,
        Int.sub_eq_add_neg]
    | _ => rfl

theorem rounds_signed {m : Nat} {e : Int} (s : Sign) (h : Canonical m e) :
    Rounds ((s.apply m : ℤ) * 2 ^ e) (s.apply m) e := by
  cases s with
  | positive => simpa [Sign.apply] using rounds_canonical h
  | negative => simpa [Sign.apply] using (rounds_canonical h).neg

theorem apply_shiftLeft (s : Sign) (m : Nat) {e t : Int} (h : t ≤ e) :
    ((s.apply (m <<< (e - t).toNat : ℕ) : ℤ) : ℚ) * 2 ^ t = (s.apply m : ℤ) * 2 ^ e := by
  obtain ⟨j, hj⟩ := Int.eq_ofNat_of_zero_le (show 0 ≤ e - t by omega)
  obtain rfl : e = j + t := by omega
  have hpow : (2 : ℚ) ^ ((j : ℤ) + t) = 2 ^ j * 2 ^ t := by
    rw [zpow_add₀ two_ne_zero, zpow_natCast]
  rw [hj, Nat.shiftLeft_eq, hpow]
  cases s <;> simp [Sign.apply, mul_assoc]

/-- The sum of two doubles is their exact sum, rounded. -/
theorem nearest_pack_add (s s' : Sign) {m m' : Nat} {e e' : Int} (hm : 0 < m) (hm' : 0 < m') :
    Nearest ((s.apply m : ℤ) * 2 ^ e + (s'.apply m' : ℤ) * 2 ^ e')
      (.ofModel (.pack (UnpackedFloat.add .binary64 (.finite s m e hm)
        (.finite s' m' e' hm')))) := by
  obtain ⟨n, k, hrounds, hvalue⟩ := nearest_normalize
    (s.apply (m <<< (e - min e e').toNat : ℕ) + s'.apply (m' <<< (e' - min e e').toNat : ℕ))
    (min e e') .positive
  refine ⟨n, k, ?_, hvalue⟩
  rw [← apply_shiftLeft s m (min_le_left e e'), ← apply_shiftLeft s' m' (min_le_right e e'),
    ← add_mul]
  exact_mod_cast hrounds

/-- What a number in canonical form stands for. -/
inductive Stands : UnpackedFloat → ℚ → Prop
  | zero (s : Sign) : Stands (.zero s) 0
  | finite (s : Sign) (m : Nat) (e : Int) (hm : 0 < m) :
      Canonical m e → Stands (.finite s m e hm) ((s.apply m : ℤ) * 2 ^ e)

theorem stands_of_ofDouble {x : Float} {p : ℚ} (h : ofDouble x = .rational p) :
    Stands x.toModel.unpack p := by
  have hvalid := valid_parts x
  rw [unpack_toModel]
  unfold ofDouble at h
  cases hx : Double.parts x with
  | nan => simp [hx, ofParts] at h
  | infinite s => simp [hx, ofParts] at h
  | finite negative m e =>
    simp only [hx, ofParts, Exact.rational.injEq] at h
    subst h
    by_cases hm : m = 0
    · simpa [unpackedOf, hm] using Stands.zero _
    · have hstands := Stands.finite (signOf negative) m e (Nat.pos_of_ne_zero hm)
        (hvalid negative m e hx).1
      cases negative <;> simpa [unpackedOf, hm, signOf, Sign.apply] using hstands

theorem Stands.neg {u : UnpackedFloat} {p : ℚ} (h : Stands u p) : Stands u.neg (-p) := by
  cases h with
  | zero s =>
    rw [neg_zero]
    exact .zero (-s)
  | finite s m e hm hcanonical =>
    have hneg := Stands.finite (-s) m e hm hcanonical
    rw [apply_neg, Int.cast_neg, neg_mul] at hneg
    exact hneg

theorem Stands.add {u v : UnpackedFloat} {p q : ℚ} (hu : Stands u p) (hv : Stands v q) :
    Nearest (p + q) (.ofModel (.pack (UnpackedFloat.add .binary64 u v))) := by
  cases hu with
  | zero s =>
    cases hv with
    | zero s' =>
      obtain ⟨t, ht⟩ : ∃ t, UnpackedFloat.add .binary64 (.zero s) (.zero s') = .zero t := by
        cases s <;> cases s' <;> exact ⟨_, rfl⟩
      refine ⟨0, -1074, by simpa using rounds_zero, ?_⟩
      rw [ht, ofDouble_pack_zero, Int.cast_zero, zero_mul, clamp_zero]
    | finite s' m' e' hm' hcanonical' =>
      rw [zero_add]
      exact ⟨_, _, rounds_signed s' hcanonical', ofDouble_pack_finite s' hm' hcanonical'⟩
  | finite s m e hm hcanonical =>
    cases hv with
    | zero s' =>
      rw [add_zero]
      exact ⟨_, _, rounds_signed s hcanonical, ofDouble_pack_finite s hm hcanonical⟩
    | finite s' m' e' hm' hcanonical' => exact nearest_pack_add s s' hm hm'

variable {x y : Float} {p q : ℚ}

theorem nearest_add (hx : ofDouble x = .rational p) (hy : ofDouble y = .rational q) :
    Nearest (p + q) (x + y) :=
  (stands_of_ofDouble hx).add (stands_of_ofDouble hy)

theorem nearest_sub (hx : ofDouble x = .rational p) (hy : ofDouble y = .rational q) :
    Nearest (p - q) (x - y) := by
  have hsub : x - y =
      .ofModel (.pack (UnpackedFloat.sub .binary64 x.toModel.unpack y.toModel.unpack)) := rfl
  rw [hsub, unpacked_sub_eq, sub_eq_add_neg]
  exact (stands_of_ofDouble hx).add (stands_of_ofDouble hy).neg

theorem unpack_of_infinite {x : Float} {negative : Bool} (hx : ofDouble x = .infinite negative) :
    x.toModel.unpack = .infinity (signOf negative) := by
  rw [unpack_toModel]
  unfold ofDouble at hx
  cases hparts : Double.parts x with
  | infinite s =>
    simp only [hparts, ofParts, Exact.infinite.injEq] at hx
    rw [hx]
    rfl
  | _ => simp [hparts, ofParts] at hx

theorem ofDouble_pack_infinity (negative : Bool) :
    ofDouble (.ofModel (.pack (.infinity (signOf negative)))) = .infinite negative :=
  ofDouble_pack_unpackedOf (p := .infinite negative) (by simp [Valid])

/-- An infinity stays what it is when a number is taken from it. -/
theorem ofDouble_sub_of_infinite {x y : Float} {negative : Bool} {q : ℚ}
    (hx : ofDouble x = .infinite negative) (hy : ofDouble y = .rational q) :
    ofDouble (x - y) = .infinite negative := by
  have hsub : x - y =
      .ofModel (.pack (UnpackedFloat.sub .binary64 x.toModel.unpack y.toModel.unpack)) := rfl
  have hsame : UnpackedFloat.sub .binary64 (.infinity (signOf negative)) y.toModel.unpack =
      .infinity (signOf negative) := by
    have hstands := stands_of_ofDouble hy
    generalize y.toModel.unpack = v at hstands
    cases hstands <;> rfl
  rw [hsub, unpack_of_infinite hx, hsame, ofDouble_pack_infinity]

/-- An infinity stays what it is when anything but NaN or its opposite is added. -/
theorem ofDouble_add_of_infinite {x y : Float} {negative : Bool}
    (hx : ofDouble x = .infinite negative)
    (hy : ofDouble y = .infinite negative ∨ ∃ q, ofDouble y = .rational q) :
    ofDouble (x + y) = .infinite negative ∧ ofDouble (y + x) = .infinite negative := by
  have hadd (a b : Float) : a + b =
      .ofModel (.pack (UnpackedFloat.add .binary64 a.toModel.unpack b.toModel.unpack)) := rfl
  have hsame : UnpackedFloat.add .binary64 (.infinity (signOf negative)) y.toModel.unpack =
        .infinity (signOf negative) ∧
      UnpackedFloat.add .binary64 y.toModel.unpack (.infinity (signOf negative)) =
        .infinity (signOf negative) := by
    rcases hy with hy | ⟨q, hy⟩
    · rw [unpack_of_infinite hy]
      cases negative <;> exact ⟨rfl, rfl⟩
    · have hstands := stands_of_ofDouble hy
      generalize y.toModel.unpack = v at hstands
      cases hstands <;> exact ⟨rfl, rfl⟩
  rw [hadd, hadd, unpack_of_infinite hx, hsame.1, hsame.2, ofDouble_pack_infinity]
  exact ⟨rfl, rfl⟩

theorem abs_lt_of_ofDouble {x : Float} {q : ℚ} (h : ofDouble x = .rational q) :
    |q| < 2 ^ (1024 : ℤ) := by
  have hvalid := valid_parts x
  unfold ofDouble at h
  cases hx : Double.parts x with
  | nan => simp [hx, ofParts] at h
  | infinite s => simp [hx, ofParts] at h
  | finite negative m e =>
    obtain ⟨hcanonical, he⟩ := hvalid negative m e hx
    have hpos : (0 : ℚ) ≤ m * 2 ^ e := by positivity
    have habs : |(m : ℚ) * 2 ^ e| < 2 ^ (1024 : ℤ) :=
      (abs_of_nonneg hpos).trans_lt (magnitude_lt_limit hcanonical he)
    simp only [hx, ofParts, Exact.rational.injEq] at h
    subst h
    cases negative
    · exact habs
    · rw [if_pos rfl, neg_mul, abs_neg]
      exact habs

theorem clamp_of_ofDouble {x : Float} {q : ℚ} (h : ofDouble x = .rational q) :
    clamp q = .rational q := if_pos (abs_lt_of_ofDouble h)

theorem nearest_of_ofDouble {x : Float} {q : ℚ} (h : ofDouble x = .rational q) : Nearest q x := by
  obtain ⟨n, k, hrounds, hsame⟩ : ∃ n k : ℤ, Rounds q n k ∧ (n : ℚ) * 2 ^ k = q := by
    have hstands := stands_of_ofDouble h
    generalize x.toModel.unpack = u at hstands
    cases hstands with
    | zero s => exact ⟨0, -1074, rounds_zero, by simp⟩
    | finite s m e hm hcanonical => exact ⟨_, _, rounds_signed s hcanonical, rfl⟩
  refine ⟨n, k, hrounds, ?_⟩
  rw [hsame, clamp_of_ofDouble h, h]

end DecisionGate.Exact
