import DecisionGate.Proofs.Rounding

/-!
# Quotients and integers as doubles

A quotient of natural numbers becomes the nearest double, or is too large for one and infinite in
its place; an integer is such a quotient. Every integer up to the largest double has one.
-/
namespace DecisionGate.Exact

open Float.Model Float.Model.UnpackedFloat

theorem roundDiv_error (num : Nat) {den : Nat} (hden : 0 < den) :
    2 * |(Double.roundDiv num den : ℚ) - num / den| ≤ 1 := by
  have hpos : (0 : ℚ) < den := by exact_mod_cast hden
  have hsplit : (num : ℚ) / den = (num / den : ℕ) + (num % den : ℕ) / den := by
    have hnat : (num : ℚ) = den * (num / den : ℕ) + (num % den : ℕ) := by
      exact_mod_cast (Nat.div_add_mod num den).symm
    rw [hnat]
    field_simp
  have hrest : (num % den : ℕ) / (den : ℚ) < 1 := by
    rw [div_lt_one hpos]
    exact_mod_cast Nat.mod_lt num hden
  have hrest' : 0 ≤ (num % den : ℕ) / (den : ℚ) := by positivity
  have hhalf : (num % den : ℕ) / (den : ℚ) ≤ 1 / 2 ↔ 2 * (num % den) ≤ den := by
    rw [div_le_div_iff₀ hpos two_pos]
    norm_cast
    omega
  have hhalf' : 1 / 2 ≤ (num % den : ℕ) / (den : ℚ) ↔ den ≤ 2 * (num % den) := by
    rw [div_le_div_iff₀ two_pos hpos]
    norm_cast
    omega
  unfold Double.roundDiv
  simp only [hsplit]
  split
  · next hup =>
    have := hhalf'.mpr (by omega)
    push_cast
    rw [abs_of_nonneg (by linarith)]
    linarith
  · next hdown =>
    have := hhalf.mpr (by omega)
    rw [abs_of_nonpos (by linarith)]
    linarith

section
variable (num : Nat) {den : Nat} (hden : 0 < den)
include hden

/-- A quotient in units of a power of two. -/
theorem scaled_value (e : Int) :
    0 < (Double.scaled num den e).2 ∧
      ((Double.scaled num den e).1 : ℚ) / (Double.scaled num den e).2 = num / den / 2 ^ e := by
  unfold Double.scaled
  split
  · next he =>
    obtain ⟨j, hj⟩ := Int.eq_ofNat_of_zero_le (show 0 ≤ -e by omega)
    obtain rfl : e = -(j : ℤ) := by omega
    refine ⟨hden, ?_⟩
    simp [twoTo_eq, div_eq_mul_inv, mul_right_comm]
  · next he =>
    obtain ⟨j, rfl⟩ := Int.eq_ofNat_of_zero_le (show 0 ≤ e by omega)
    refine ⟨by simp [twoTo_eq, hden], ?_⟩
    simp [twoTo_eq, div_div]

theorem scaled_lt_iff (e : Int) (k : Nat) :
    (Double.scaled num den e).1 / (Double.scaled num den e).2 < twoTo k ↔
      (num : ℚ) / den < 2 ^ (k + e) := by
  obtain ⟨hpos, hvalue⟩ := scaled_value num hden e
  have hunit : (0 : ℚ) < 2 ^ e := by positivity
  have hpos' : (0 : ℚ) < (Double.scaled num den e).2 := by exact_mod_cast hpos
  rw [twoTo_eq, Nat.div_lt_iff_lt_mul hpos, zpow_add₀ two_ne_zero, ← div_lt_iff₀ hunit, ← hvalue,
    div_lt_iff₀ hpos']
  norm_cast

end

theorem log2_bounds {num : Nat} (h : num ≠ 0) :
    (2 : ℚ) ^ (num.log2 : ℤ) ≤ num ∧ (num : ℚ) < 2 ^ ((num.log2 : ℤ) + 1) := by
  constructor
  · exact_mod_cast Nat.log2_self_le h
  · exact_mod_cast Nat.lt_log2_self

/-- The lengths of both parts of a quotient give its size, but for one place. -/
theorem quotient_bounds {num den : Nat} (hnum : num ≠ 0) (hden : den ≠ 0) :
    (2 : ℚ) ^ ((num.log2 : ℤ) - den.log2 - 1) < num / den ∧
      (num : ℚ) / den < 2 ^ ((num.log2 : ℤ) - den.log2 + 1) := by
  obtain ⟨hlow, hhigh⟩ := log2_bounds hnum
  obtain ⟨hlow', hhigh'⟩ := log2_bounds hden
  have hpos : (0 : ℚ) < den := by exact_mod_cast Nat.pos_of_ne_zero hden
  constructor
  · rw [lt_div_iff₀ hpos]
    calc (2 : ℚ) ^ ((num.log2 : ℤ) - den.log2 - 1) * den
        < 2 ^ ((num.log2 : ℤ) - den.log2 - 1) * 2 ^ ((den.log2 : ℤ) + 1) := by gcongr
      _ = 2 ^ (num.log2 : ℤ) := by rw [← zpow_add₀ two_ne_zero]; congr 1; ring
      _ ≤ num := hlow
  · rw [div_lt_iff₀ hpos]
    calc (num : ℚ) < 2 ^ ((num.log2 : ℤ) + 1) := hhigh
      _ = 2 ^ ((num.log2 : ℤ) - den.log2 + 1) * 2 ^ (den.log2 : ℤ) := by
        rw [← zpow_add₀ two_ne_zero]; congr 1; ring
      _ ≤ 2 ^ ((num.log2 : ℤ) - den.log2 + 1) * den := by gcongr

/-- The exponent of a quotient leaves it a mantissa of fifty-three bits, or is the least one. -/
theorem exponentOf_bounds {num den : Nat} (hnum : num ≠ 0) (hden : den ≠ 0) :
    (num : ℚ) / den < 2 ^ (53 + Double.exponentOf num den) ∧
      -1074 ≤ Double.exponentOf num den ∧
      (2 ^ (52 + Double.exponentOf num den) ≤ (num : ℚ) / den ∨
        Double.exponentOf num den = -1074) := by
  obtain ⟨hlow, hhigh⟩ := quotient_bounds hnum hden
  obtain ⟨guess, hguess⟩ : ∃ guess : Int, guess = num.log2 - den.log2 - 52 := ⟨_, rfl⟩
  have hleast : Double.minExponent = -1074 := rfl
  -- The guess is right or one too great; the exact exponent lies in the binade of the quotient.
  obtain ⟨exact, hexact, hbelow, habove⟩ : ∃ exact : Int,
      Double.exponentOf num den = max Double.minExponent exact ∧
        (num : ℚ) / den < 2 ^ (53 + exact) ∧ 2 ^ (52 + exact) ≤ (num : ℚ) / den := by
    have hiff := scaled_lt_iff num (Nat.pos_of_ne_zero hden) guess 52
    simp only [Double.exponentOf, ← hguess]
    split
    · next hsmall =>
      refine ⟨guess - 1, rfl, ?_, ?_⟩
      · have hlt := hiff.mp hsmall
        rwa [show (53 : ℤ) + (guess - 1) = (52 : ℕ) + guess by push_cast; ring]
      · refine le_of_lt ?_
        rwa [show (52 : ℤ) + (guess - 1) = num.log2 - den.log2 - 1 by omega]
    · next hlarge =>
      refine ⟨guess, rfl, ?_, ?_⟩
      · rwa [show (53 : ℤ) + guess = num.log2 - den.log2 + 1 by omega]
      · exact_mod_cast not_lt.mp (mt hiff.mpr hlarge)
  rw [hexact, hleast]
  rcases le_total (-1074) exact with hle | hle
  · rw [max_eq_right hle]
    exact ⟨hbelow, hle, .inl habove⟩
  · rw [max_eq_left hle]
    refine ⟨hbelow.trans_le (zpow_le_zpow_right₀ one_le_two (by omega)), le_rfl, .inr rfl⟩

/-- A quotient is rounded to fifty-three bits. -/
theorem rounds_roundDiv {num den : Nat} (hnum : num ≠ 0) (hden : den ≠ 0) :
    Rounds (num / den) (Double.roundDiv (Double.scaled num den (Double.exponentOf num den)).1
      (Double.scaled num den (Double.exponentOf num den)).2) (Double.exponentOf num den) := by
  obtain ⟨hlt, hleast, hnormal⟩ := exponentOf_bounds hnum hden
  obtain ⟨k, hk⟩ : ∃ k, k = Double.exponentOf num den := ⟨_, rfl⟩
  rw [← hk] at hlt hleast hnormal ⊢
  obtain ⟨hpos, hvalue⟩ := scaled_value num (Nat.pos_of_ne_zero hden) k
  have herror := roundDiv_error (Double.scaled num den k).1 hpos
  have hunit : (0 : ℚ) < 2 ^ k := by positivity
  have habs : |(num : ℚ) / den| = num / den := abs_of_nonneg (by positivity)
  rw [hvalue] at herror
  refine ⟨?_, by rwa [habs], hleast, by rwa [habs]⟩
  generalize Double.roundDiv _ _ = n at herror ⊢
  have hsame : (n : ℚ) * 2 ^ k - num / den = (n - num / den / 2 ^ k) * 2 ^ k := by
    field_simp
  rw [Int.cast_natCast, hsame, abs_mul, abs_of_pos hunit, ← mul_assoc]
  simpa using mul_le_mul_of_nonneg_right herror hunit.le

/-- The bits of a mantissa of fifty-three bits or fewer, or of one that was rounded up to the next
power of two. -/
theorem ofParts_bits (negative : Bool) {E N : Nat} (hlow : 2 ^ 52 ≤ N ∨ E = 0)
    (hhigh : N ≤ 2 ^ 53) (hfits : E * 2 ^ 52 + N < 2047 * 2 ^ 52) :
    ofParts (Double.partsOfBits
      (if negative then 2 ^ 63 + (E * 2 ^ 52 + N) else E * 2 ^ 52 + N)) =
        .rational ((if negative then -(N : ℚ) else N) * 2 ^ ((E : ℤ) - 1074)) := by
  obtain ⟨word, hword⟩ : ∃ word, word =
      if negative then 2 ^ 63 + (E * 2 ^ 52 + N) else E * 2 ^ 52 + N := ⟨_, rfl⟩
  have hsign : (word / 2 ^ 63 % 2 == 1) = negative := by
    cases negative
    · rw [beq_eq_false_iff_ne]
      simp only [Bool.false_eq_true, if_false] at hword
      omega
    · rw [beq_iff_eq]
      simp only [if_true] at hword
      omega
  have hmod : word % 2 ^ 63 = E * 2 ^ 52 + N := by
    cases negative <;> simp only [Bool.false_eq_true, if_false, if_true] at hword <;> omega
  rw [← hword]
  unfold Double.partsOfBits
  simp only [twoTo_eq, hsign]
  rcases Nat.lt_or_ge N (2 ^ 52) with hsmall | hlow
  · obtain rfl : E = 0 := by omega
    have hexponent : word / 2 ^ 52 % 2 ^ 11 = 0 := by omega
    have hfraction : word % 2 ^ 52 = N := by omega
    rw [hexponent, hfraction, if_neg (by omega), if_pos rfl]
    simp [ofParts, Double.minExponent]
  rcases hhigh.lt_or_eq with hlt | rfl
  · have hexponent : word / 2 ^ 52 % 2 ^ 11 = E + 1 := by omega
    have hfraction : word % 2 ^ 52 = N - 2 ^ 52 := by omega
    rw [hexponent, hfraction, if_neg (by omega), if_neg (by omega), Nat.add_sub_cancel' hlow]
    simp only [ofParts]
    congr 3
    push_cast
    ring
  · have hexponent : word / 2 ^ 52 % 2 ^ 11 = E + 2 := by omega
    have hfraction : word % 2 ^ 52 = 0 := by omega
    rw [hexponent, hfraction, if_neg (by omega), if_neg (by omega)]
    simp only [ofParts]
    have hdouble : (2 : ℚ) ^ (((E + 2 : ℕ) : ℤ) - 1075) = 2 * 2 ^ ((E : ℤ) - 1074) := by
      rw [mul_comm, ← zpow_add_one₀ two_ne_zero]
      congr 1
      push_cast
      ring
    rw [hdouble]
    congr 1
    cases negative <;> simp <;> ring

theorem ofDouble_ofBits {bits : Nat} (h : bits < 2 ^ 64) :
    ofDouble (Float.ofBits (UInt64.ofNat bits)) = ofParts (Double.partsOfBits bits) := by
  have hbits : (UInt64.ofNat bits).toBitVec.toNat = bits := by
    show bits % 2 ^ 64 = bits
    exact Nat.mod_eq_of_lt h
  have hword : Float.ofBits (UInt64.ofNat bits) =
      .ofModel (.pack (UnpackedFloat.unpack .binary64 (UInt64.ofNat bits).toBitVec)) := rfl
  rw [hword, unpack_eq, hbits]
  exact ofDouble_pack_unpackedOf fun _ _ _ h => canonical_of_partsOfBits h

theorem ofDouble_bits (negative : Bool) {E N : Nat} (hlow : 2 ^ 52 ≤ N ∨ E = 0) (hhigh : N ≤ 2 ^ 53)
    (hfits : E * 2 ^ 52 + N < 2047 * 2 ^ 52) :
    ofDouble (Float.ofBits (UInt64.ofNat
      (if negative then 2 ^ 63 + (E * 2 ^ 52 + N) else E * 2 ^ 52 + N))) =
        .rational ((if negative then -(N : ℚ) else N) * 2 ^ ((E : ℤ) - 1074)) := by
  have hword : (if negative then 2 ^ 63 + (E * 2 ^ 52 + N) else E * 2 ^ 52 + N) < 2 ^ 64 := by
    cases negative <;> simp only [Bool.false_eq_true, if_false, if_true] <;> omega
  rw [ofDouble_ofBits hword, ofParts_bits negative hlow hhigh hfits]

/-- A zero keeps its sign, but that makes no other number of it. -/
theorem ofDouble_ofRatio_zero (negative : Bool) (den : Nat) :
    ∃ x, Double.ofRatio? negative 0 den = some x ∧ ofDouble x = .rational 0 := by
  have hbits : Double.bitsOfRatio 0 den = 0 * 2 ^ 52 + 0 := rfl
  have hzero := ofDouble_bits negative (E := 0) (N := 0) (.inr rfl) (by norm_num) (by norm_num)
  refine ⟨_, ?_, hzero.trans ?_⟩
  · rw [Double.ofRatio?, hbits, if_pos (by norm_num [Double.infinityBits, twoTo_eq])]
    rfl
  · cases negative <;> simp

/-- The bits of a quotient are those of its mantissa at its exponent. -/
theorem bitsOfRatio_eq {num den : Nat} (hnum : num ≠ 0) (hden : den ≠ 0) :
    ∃ E N : ℕ, Rounds (num / den) N (E - 1074) ∧ (2 ^ 52 ≤ N ∨ E = 0) ∧ N ≤ 2 ^ 53 ∧
      Double.bitsOfRatio num den = E * 2 ^ 52 + N := by
  have hrounds := rounds_roundDiv hnum hden
  obtain ⟨-, hleast, hnormal⟩ := exponentOf_bounds hnum hden
  obtain ⟨E, hE⟩ := Int.eq_ofNat_of_zero_le (show 0 ≤ Double.exponentOf num den + 1074 by omega)
  have hunit : Double.exponentOf num den = E - 1074 := by omega
  have hexponent : (Double.exponentOf num den - Double.minExponent).toNat = E := by
    have hleast : Double.minExponent = -1074 := rfl
    omega
  obtain ⟨N, hN⟩ : ∃ N, N = Double.roundDiv (Double.scaled num den (Double.exponentOf num den)).1
    (Double.scaled num den (Double.exponentOf num den)).2 := ⟨_, rfl⟩
  have hbits : Double.bitsOfRatio num den = E * 2 ^ 52 + N := by
    simp only [Double.bitsOfRatio, if_neg hnum, hexponent, twoTo_eq, hN]
  rw [← hN, hunit] at hrounds
  rw [hunit] at hnormal
  have hlow : 2 ^ 52 ≤ N ∨ E = 0 := by
    rcases hnormal with hnormal | hleast
    · exact .inl (by exact_mod_cast hrounds.start_le hnormal)
    · exact .inr (by omega)
  exact ⟨E, N, hrounds, hlow, by exact_mod_cast hrounds.le_end, hbits⟩

/-- A rational number with a sign. -/
def signed (negative : Bool) (q : ℚ) : ℚ := if negative then -q else q

theorem rounds_signed_quotient {q : ℚ} {n k : ℤ} (negative : Bool) (h : Rounds q n k) :
    Rounds (signed negative q) (if negative then -n else n) k := by
  cases negative
  · exact h
  · exact h.neg

/-- A quotient is rounded to a double, or is too large. -/
theorem ofDouble_ofRatio {negative : Bool} {num den : Nat} {x : Float} (hden : den ≠ 0)
    (h : Double.ofRatio? negative num den = some x) :
    ∃ n k : ℤ, Rounds (signed negative (num / den)) n k ∧ ofDouble x = .rational (n * 2 ^ k) := by
  by_cases hnum : num = 0
  · subst hnum
    obtain ⟨y, hy, hzero⟩ := ofDouble_ofRatio_zero negative den
    obtain rfl := Option.some.inj (h.symm.trans hy)
    refine ⟨0, -1074, by cases negative <;> simpa [signed] using rounds_zero, ?_⟩
    rw [hzero, Int.cast_zero, zero_mul]
  · obtain ⟨E, N, hrounds, hlow, hhigh, hbits⟩ := bitsOfRatio_eq hnum hden
    simp only [Double.ofRatio?, Double.infinityBits, twoTo_eq, hbits] at h
    split at h
    · next hfits =>
      obtain rfl := Option.some.inj h
      refine ⟨_, _, rounds_signed_quotient negative hrounds, ?_⟩
      rw [ofDouble_bits negative hlow hhigh hfits]
      cases negative <;> simp
    · cases h

theorem quotient_natAbs (i : ℤ) : (i.natAbs : ℚ) / (1 : ℕ) = |(i : ℚ)| := by
  rw [Nat.cast_one, div_one, ← Int.cast_natCast, Int.natCast_natAbs, Int.cast_abs]

/-- An integer is rounded to a double, or is too large. -/
theorem ofDouble_ofInt {i : ℤ} {x : Float} (h : Double.ofInt? i = some x) :
    ∃ n k : ℤ, Rounds i n k ∧ ofDouble x = .rational (n * 2 ^ k) := by
  have hsigned : signed (i < 0) (i.natAbs / (1 : ℕ)) = i := by
    rw [quotient_natAbs, signed]
    by_cases hi : i < 0
    · have hneg : (i : ℚ) < 0 := by exact_mod_cast hi
      rw [decide_eq_true hi, if_pos rfl, abs_of_neg hneg, neg_neg]
    · have hpos : (0 : ℚ) ≤ i := by exact_mod_cast not_lt.mp hi
      rw [decide_eq_false hi, abs_of_nonneg hpos]
      rfl
  rw [← hsigned]
  exact ofDouble_ofRatio one_ne_zero h

/-- An integer that becomes a double stays integral. -/
theorem isIntegral_of_ofInt? {i : ℤ} {x : Float} (h : Double.ofInt? i = some x) :
    Double.isIntegral x = true := by
  obtain ⟨n, k, hrounds, hx⟩ := ofDouble_ofInt h
  obtain ⟨r, hr⟩ := hrounds.integral
  exact isIntegral_of_ofDouble (hx.trans (congrArg Exact.rational hr))

/-- A quotient without a double is rounded to a number past the largest one. -/
theorem limit_le_of_ofRatio {negative : Bool} {num den : Nat} (hden : den ≠ 0)
    (h : Double.ofRatio? negative num den = none) :
    ∃ n k : ℤ, Rounds (num / den) n k ∧ (2 : ℚ) ^ (1024 : ℤ) ≤ n * 2 ^ k := by
  unfold Double.ofRatio? at h
  simp only [Double.infinityBits, twoTo_eq] at h
  by_cases hnum : num = 0
  · simp [hnum, Double.bitsOfRatio] at h
  · obtain ⟨E, N, hrounds, hlow, hhigh, hbits⟩ := bitsOfRatio_eq hnum hden
    rw [hbits] at h
    have hlarge : 2047 * 2 ^ 52 ≤ E * 2 ^ 52 + N := by
      by_contra hlt
      rw [if_pos (not_le.mp hlt)] at h
      cases h
    refine ⟨N, E - 1074, hrounds, ?_⟩
    rw [Int.cast_natCast]
    rcases Nat.lt_or_ge E 2046 with hE | hE
    · -- Just below the limit only the mantissa that was rounded up reaches it.
      obtain rfl : N = 2 ^ 53 := by omega
      obtain rfl : E = 2045 := by omega
      refine le_of_eq ?_
      rw [Nat.cast_pow, Nat.cast_ofNat, ← zpow_natCast, ← zpow_add₀ two_ne_zero]
      norm_num
    · have hN : (2 : ℚ) ^ (52 : ℤ) ≤ N := by exact_mod_cast hlow.resolve_right (by omega)
      calc (2 : ℚ) ^ (1024 : ℤ) ≤ 2 ^ (52 + ((E : ℤ) - 1074)) :=
            zpow_le_zpow_right₀ one_le_two (by omega)
        _ = 2 ^ (52 : ℤ) * 2 ^ ((E : ℤ) - 1074) := zpow_add₀ two_ne_zero _ _
        _ ≤ N * 2 ^ ((E : ℤ) - 1074) := by gcongr

/-- Rounding does not take a number past the largest double. -/
theorem Rounds.lt_limit {q : ℚ} {n k : ℤ} (h : Rounds q n k)
    (hq : |q| ≤ (2 ^ 53 - 1) * 2 ^ (971 : ℤ)) : (n : ℚ) * 2 ^ k < 2 ^ (1024 : ℤ) := by
  have hlimit : (2 : ℚ) ^ (1024 : ℤ) = 2 ^ 53 * 2 ^ (971 : ℤ) := zpow_add₀ two_ne_zero 53 971
  have hpos : (0 : ℚ) < 2 ^ (971 : ℤ) := by positivity
  have hk : k ≤ 971 := by
    rcases h.normal with hnormal | hleast
    · have hlt : (2 : ℚ) ^ (52 + k) < 2 ^ (1024 : ℤ) := by
        rw [hlimit]
        generalize (2 : ℚ) ^ (971 : ℤ) = u at hq hpos
        linarith
      have := (zpow_lt_zpow_iff_right₀ one_lt_two).mp hlt
      omega
    · omega
  have hunit : (2 : ℚ) ^ k ≤ 2 ^ (971 : ℤ) := zpow_le_zpow_right₀ one_le_two hk
  have herror := (abs_le.mp (show |n * 2 ^ k - q| ≤ 2 ^ k / 2 by linarith [h.error])).2
  have hself := le_abs_self q
  rw [hlimit]
  generalize (2 : ℚ) ^ (971 : ℤ) = u at hq hpos hunit
  linarith

/-- Every integer up to the largest double has one. -/
theorem ofInt_isSome {i : ℤ} (h : |(i : ℚ)| ≤ (2 ^ 53 - 1) * 2 ^ (971 : ℤ)) :
    (Double.ofInt? i).isSome = true := by
  cases hi : Double.ofInt? i with
  | some x => rfl
  | none =>
    obtain ⟨n, k, hrounds, hlimit⟩ := limit_le_of_ofRatio one_ne_zero hi
    rw [quotient_natAbs] at hrounds
    exact absurd (hrounds.lt_limit (by rwa [abs_abs])) (not_lt.mpr hlimit)

theorem two_pow_le_tenTo (n : Nat) : 2 ^ n ≤ tenTo n := Nat.pow_le_pow_left (by decide) n

theorem one_lt_tenTo {n : Nat} (h : n ≠ 0) : 1 < tenTo n := Nat.one_lt_pow h (by decide)

/-- An integer that is too long to be shown is too large for a double. -/
theorem hasText_of_ofInt? {i : ℤ} {x : Float} (h : Double.ofInt? i = some x) :
    Format.hasText i = true := by
  obtain ⟨n, k, hrounds, hx⟩ := ofDouble_ofInt h
  by_contra hlong
  have hdigits : tenTo Format.longestInteger ≤ i.natAbs := by simpa [Format.hasText] using hlong
  have hlarge : (2 : ℚ) ^ Format.longestInteger ≤ |(i : ℚ)| := by
    rw [← quotient_natAbs, Nat.cast_one, div_one]
    exact_mod_cast (two_pow_le_tenTo _).trans hdigits
  have hexponent : 1024 ≤ k := by
    have hlt := hlarge.trans_lt hrounds.lt
    rw [← zpow_natCast, zpow_lt_zpow_iff_right₀ one_lt_two] at hlt
    have hlongest : Format.longestInteger = 4300 := rfl
    omega
  have hnormal : (2 : ℚ) ^ (52 + k) ≤ |(i : ℚ)| := hrounds.normal.resolve_right (by omega)
  have hpow : (2 : ℚ) ^ (52 + k) = 2 ^ 52 * 2 ^ k := zpow_add₀ two_ne_zero 52 k
  have hunit : (2 : ℚ) ^ (1024 : ℤ) ≤ 2 ^ k := zpow_le_zpow_right₀ one_le_two hexponent
  have hself := abs_sub_abs_le_abs_sub (i : ℚ) (n * 2 ^ k)
  have herror := hrounds.error
  have hlimit := abs_lt_of_ofDouble hx
  rw [abs_sub_comm] at hself
  rw [hpow] at hnormal
  generalize (2 : ℚ) ^ (1024 : ℤ) = limit at hunit hlimit
  have hpos : (0 : ℚ) < 2 ^ k := by positivity
  linarith

theorem nearest_ofInt {i : ℤ} {x : Float} (h : Double.ofInt? i = some x) : Nearest i x := by
  obtain ⟨n, k, hrounds, hx⟩ := ofDouble_ofInt h
  exact ⟨n, k, hrounds, hx.trans (clamp_of_ofDouble hx).symm⟩

theorem nearest_toDouble {n : Number} {q : ℚ} {x : Float} (hn : ofNumber n = .rational q)
    (h : n.toDouble = .ok x) : Nearest q x := by
  cases n with
  | float y =>
    obtain rfl := Except.ok.inj h
    exact nearest_of_ofDouble hn
  | int i =>
    obtain rfl := Exact.rational.inj hn
    cases hi : Double.ofInt? i with
    | none => simp [Number.toDouble, hi] at h
    | some y =>
      simp only [Number.toDouble, hi, Except.ok.injEq] at h
      subst h
      exact nearest_ofInt hi

end DecisionGate.Exact
