import Mathlib
import DecisionGate.Value.Arithmetic

/-!
# What doubles stand for

A double stands for a rational number, or is an infinity or NaN. Its parts are those into which the
bits are unpacked, and packing a number that is in canonical form gives the parts back. Doubles and
integers are ordered, and found equal, by what they stand for.
-/
namespace DecisionGate

open Float.Model Float.Model.UnpackedFloat

/-- A number without rounding: a rational number, or one of the special values. -/
inductive Exact where
  | nan
  | infinite (negative : Bool)
  | rational (q : ℚ)
  deriving DecidableEq

namespace Exact

def ofParts : Double.Parts → Exact
  | .nan => .nan
  | .infinite negative => .infinite negative
  | .finite negative m e => .rational ((if negative then -(m : ℚ) else m) * 2 ^ e)

/-- What a double stands for. -/
def ofDouble (x : Float) : Exact := ofParts (Double.parts x)

def isNegative : Sign → Bool
  | .negative => true
  | .positive => false

theorem toNat_unpackMantissa (b : BitVec 64) :
    (@unpackMantissa .binary64 b).toNat = b.toNat % 2 ^ 52 := by
  simp [unpackMantissa]

theorem toNat_unpackExponent (b : BitVec 64) :
    (@unpackExponent .binary64 b).toNat = b.toNat / 2 ^ 52 % 2 ^ 11 := by
  simp [unpackExponent, Nat.shiftRight_eq_div_pow]

theorem toNat_unpackSign (b : BitVec 64) :
    (@unpackSign .binary64 b).toNat = b.toNat / 2 ^ 63 % 2 := by
  simp [unpackSign, Nat.shiftRight_eq_div_pow]

theorem toNat_implicit (v : BitVec 52) : (1#1 ++ v).toNat = 2 ^ 52 + v.toNat := by
  rw [BitVec.toNat_append, ← Nat.shiftLeft_add_eq_or_of_lt v.isLt]
  rfl

theorem unpackExponent_eq_iff (b : BitVec 64) (n : Nat) (hn : n < 2 ^ 11) :
    @unpackExponent .binary64 b = BitVec.ofNat 11 n ↔ b.toNat / 2 ^ 52 % 2 ^ 11 = n := by
  rw [← BitVec.toNat_inj, toNat_unpackExponent, BitVec.toNat_ofNat, Nat.mod_eq_of_lt hn]

theorem unpackMantissa_eq_zero_iff (b : BitVec 64) :
    @unpackMantissa .binary64 b = 0#52 ↔ b.toNat % 2 ^ 52 = 0 := by
  rw [← BitVec.toNat_inj, toNat_unpackMantissa]
  rfl

theorem unpackSign_eq (b : BitVec 64) :
    Sign.ofBitVec (@unpackSign .binary64 b) =
      if b.toNat / 2 ^ 63 % 2 = 1 then .negative else .positive := by
  have h := toNat_unpackSign b
  unfold Sign.ofBitVec
  by_cases hz : b.toNat / 2 ^ 63 % 2 = 1
  · rw [if_neg, if_pos hz]
    intro h0
    rw [h0] at h
    simp at h
    omega
  · rw [if_pos, if_neg hz]
    apply BitVec.eq_of_toNat_eq
    rw [h]
    simp
    omega

theorem twoTo_eq (n : Nat) : twoTo n = 2 ^ n := by
  unfold twoTo
  exact Nat.pow_eq

def signOf (negative : Bool) : Sign := if negative then .negative else .positive

/-- Parts in unpacked form; a mantissa of zero is a zero. -/
def unpackedOf : Double.Parts → UnpackedFloat
  | .nan => .notANumber
  | .infinite negative => .infinity (signOf negative)
  | .finite negative m e =>
    if h : m = 0 then .zero (signOf negative)
    else .finite (signOf negative) m e (Nat.pos_of_ne_zero h)

/-- A pattern of bits is unpacked into its parts. -/
theorem unpack_eq (b : BitVec 64) :
    UnpackedFloat.unpack .binary64 b = unpackedOf (Double.partsOfBits b.toNat) := by
  have hsign : Sign.ofBitVec (@unpackSign .binary64 b) =
      signOf (b.toNat / 2 ^ 63 % 2 == 1) := by
    rw [unpackSign_eq]
    simp [signOf]
  have hall : (-1#11 : BitVec 11) = BitVec.ofNat 11 2047 := rfl
  have hfull := unpackExponent_eq_iff b 2047 (by decide)
  have hleast := unpackExponent_eq_iff b 0 (by decide)
  have hmantissa := unpackMantissa_eq_zero_iff b
  have hm := toNat_unpackMantissa b
  have he := toNat_unpackExponent b
  unfold UnpackedFloat.unpack Double.partsOfBits
  simp only [twoTo_eq, hsign]
  split
  · next h =>
    rw [if_pos (hfull.mp h)]
    split
    · next h' => rw [if_pos (hmantissa.mp h')]; rfl
    · next h' => rw [if_neg (mt hmantissa.mpr h')]; rfl
  · next h =>
    rw [if_neg (mt hfull.mpr h)]
    split
    · next h' =>
      rw [if_pos (hleast.mp h')]
      split
      · next h'' =>
        have hz := hmantissa.mp h''
        simp only [unpackedOf, hz, dite_true]
      · next h'' =>
        have hne : ¬ b.toNat % 2 ^ 52 = 0 := mt hmantissa.mpr h''
        simp only [unpackedOf, hne, dite_false]
        congr 1
        rw [he, hleast.mp h']
        rfl
    · next h' =>
      rw [if_neg (mt hleast.mpr h')]
      have hne : ¬ 2 ^ 52 + b.toNat % 2 ^ 52 = 0 := by omega
      simp only [unpackedOf, hne, dite_false]
      congr 1
      · rw [toNat_implicit, hm]
      · rw [he]
        rfl

/-- A mantissa and an exponent as doubles have them, but for the greatest exponent. -/
structure Canonical (m : Nat) (e : Int) : Prop where
  lt : m < 2 ^ 53
  least : -1074 ≤ e
  normal : 2 ^ 52 ≤ m ∨ e = -1074

theorem canonical_of_partsOfBits {n m : Nat} {e : Int} {negative : Bool}
    (h : Double.partsOfBits n = .finite negative m e) : Canonical m e ∧ e ≤ 971 := by
  unfold Double.partsOfBits at h
  simp only [twoTo_eq] at h
  split at h
  · split at h <;> cases h
  · next hfull =>
    split at h
    · cases h
      exact ⟨⟨by omega, by decide, .inr rfl⟩, by decide⟩
    · cases h
      exact ⟨⟨by omega, by omega, .inl (by omega)⟩, by omega⟩

theorem toNat_packComponents (s : Sign) (e : BitVec 11) (m : BitVec 52) :
    (packComponents .binary64 s e m).toNat =
      s.toBitVec.toNat * 2 ^ 63 + e.toNat * 2 ^ 52 + m.toNat := by
  unfold packComponents
  rw [BitVec.toNat_append, ← Nat.shiftLeft_add_eq_or_of_lt m.isLt, BitVec.toNat_append,
    ← Nat.shiftLeft_add_eq_or_of_lt e.isLt, Nat.shiftLeft_eq, Nat.shiftLeft_eq]
  show (s.toBitVec.toNat * 2 ^ 11 + e.toNat) * 2 ^ 52 + m.toNat = _
  omega

theorem partsOfBits_components (s : Sign) (e : BitVec 11) (m : BitVec 52) :
    Double.partsOfBits (packComponents .binary64 s e m).toNat =
      if e.toNat = 2047 then
        if m.toNat = 0 then .infinite (isNegative s) else .nan
      else if e.toNat = 0 then .finite (isNegative s) m.toNat Double.minExponent
      else .finite (isNegative s) (2 ^ 52 + m.toNat) (e.toNat - 1075) := by
  have he := e.isLt
  have hm := m.isLt
  obtain ⟨bit, hbit, hneg⟩ : ∃ bit, s.toBitVec.toNat = bit ∧ (bit % 2 == 1) = (isNegative s) := by
    cases s <;> exact ⟨_, rfl, rfl⟩
  rw [toNat_packComponents, hbit]
  have h1 : (bit * 2 ^ 63 + e.toNat * 2 ^ 52 + m.toNat) / 2 ^ 63 = bit := by omega
  have h2 : (bit * 2 ^ 63 + e.toNat * 2 ^ 52 + m.toNat) / 2 ^ 52 % 2 ^ 11 = e.toNat := by omega
  have h3 : (bit * 2 ^ 63 + e.toNat * 2 ^ 52 + m.toNat) % 2 ^ 52 = m.toNat := by omega
  unfold Double.partsOfBits
  simp only [twoTo_eq, h1, h2, h3, hneg]

theorem parts_pack (u : UnpackedFloat) :
    Double.parts (.ofModel (.pack u)) =
      Double.partsOfBits (UnpackedFloat.pack .binary64 u).toNat := rfl

theorem parts_pack_nan : Double.parts (.ofModel (.pack .notANumber)) = .nan := by
  rw [parts_pack]
  exact partsOfBits_components .positive _ _

theorem parts_pack_infinity (s : Sign) :
    Double.parts (.ofModel (.pack (.infinity s))) = .infinite (isNegative s) := by
  rw [parts_pack]
  exact partsOfBits_components s _ _

theorem parts_pack_zero (s : Sign) :
    Double.parts (.ofModel (.pack (.zero s))) = .finite (isNegative s) 0 Double.minExponent := by
  rw [parts_pack]
  exact partsOfBits_components s _ _

theorem log2_eq_of_canonical {m : Nat} {e : Int} (h : Canonical m e) (hm : 0 < m) :
    m.log2 + 1 = 53 ↔ 2 ^ 52 ≤ m := by
  have hlog := Nat.log2_eq_iff (n := m) (k := 52) (by omega)
  have hlt := h.lt
  constructor
  · intro h'
    exact (hlog.mp (by omega)).1
  · intro h'
    rw [hlog.mpr ⟨h', hlt⟩]

/-- A number in canonical form is packed as it is, unless it is too large. -/
theorem parts_pack_finite (s : Sign) {m : Nat} {e : Int} (hm : 0 < m) (h : Canonical m e) :
    Double.parts (.ofModel (.pack (.finite s m e hm))) =
      if e ≤ 971 then .finite (isNegative s) m e else .infinite (isNegative s) := by
  have hlt := h.lt
  have hleast := h.least
  have hlog := log2_eq_of_canonical h hm
  have hbias : (e + Format.binary64.exponentBias + Format.binary64.mantissaBitsWithoutImplicit) =
      e + 1075 := by
    show e + 1023 + 52 = _
    omega
  have hbits : Format.binary64.mantissaBits = 53 := rfl
  rw [parts_pack]
  unfold UnpackedFloat.pack
  simp only [hbias, hbits, hlog]
  have hlarge : 2 ^ Format.binary64.exponentBits ≤ (e + 1075).toNat + 1 ↔ ¬ e ≤ 971 := by
    show 2 ^ 11 ≤ _ ↔ _
    omega
  by_cases hfits : e ≤ 971
  · rw [if_neg (mt hlarge.mp (not_not.mpr hfits)), if_pos hfits]
    by_cases hnormal : 2 ^ 52 ≤ m
    · have he : (BitVec.ofNat 11 (e + 1075).toNat).toNat = (e + 1075).toNat := by
        rw [BitVec.toNat_ofNat]
        omega
      have hmantissa : (BitVec.ofNat 52 m).toNat = m - 2 ^ 52 := by
        rw [BitVec.toNat_ofNat]
        omega
      rw [if_pos hnormal, partsOfBits_components, he, hmantissa, if_neg (by omega),
        if_neg (by omega), Nat.add_sub_cancel' hnormal, Int.toNat_of_nonneg (by omega),
        Int.add_sub_cancel]
    · have hmantissa : (BitVec.ofNat 52 m).toNat = m := by
        rw [BitVec.toNat_ofNat]
        omega
      obtain rfl : e = -1074 := h.normal.resolve_left hnormal
      rw [if_neg hnormal, partsOfBits_components, hmantissa]
      rfl
  · rw [if_pos (hlarge.mpr hfits), if_neg hfits]
    exact partsOfBits_components s _ _

theorem zpow_two_lt {a b : ℤ} (h : a < b) : (2 : ℚ) ^ a * 2 ≤ 2 ^ b := by
  rw [← zpow_add_one₀ two_ne_zero]
  exact zpow_le_zpow_right₀ one_le_two h

/-- Of two numbers in canonical form the one of the greater exponent is greater. -/
theorem magnitude_lt {m m' : Nat} {e e' : Int} (h : Canonical m e) (h' : Canonical m' e')
    (he : e < e') : (m : ℚ) * 2 ^ e < m' * 2 ^ e' := by
  have hleast := h.least
  have hnormal : 2 ^ 52 ≤ m' := h'.normal.resolve_right (by omega)
  have hm : (m : ℚ) < 2 ^ 53 := by exact_mod_cast h.lt
  have hm' : (2 : ℚ) ^ 52 ≤ m' := by exact_mod_cast hnormal
  calc (m : ℚ) * 2 ^ e < 2 ^ 53 * 2 ^ e := by gcongr
    _ = 2 ^ 52 * (2 ^ e * 2) := by ring
    _ ≤ 2 ^ 52 * 2 ^ e' := by gcongr; exact zpow_two_lt he
    _ ≤ m' * 2 ^ e' := by gcongr

theorem cmp_magnitudes {m m' : Nat} {e e' : Int} (h : Canonical m e) (h' : Canonical m' e') :
    cmp ((m : ℚ) * 2 ^ e) (m' * 2 ^ e') = (compare e e').then (compare m m') := by
  rcases lt_trichotomy e e' with he | rfl | he
  · rw [(cmp_eq_lt_iff _ _).mpr (magnitude_lt h h' he), compare_lt_iff_lt.mpr he]
    rfl
  · have hpos : (0 : ℚ) < 2 ^ e := by positivity
    rw [cmp_mul_pos_right hpos, compare_eq_iff_eq.mpr rfl, Nat.strictMono_cast.cmp_map_eq]
    exact cmp_eq_compare m m'
  · rw [(cmp_eq_gt_iff _ _).mpr (magnitude_lt h' h he), compare_gt_iff_gt.mpr he]
    rfl

/-- The order of numbers; NaN has none. -/
protected def compare : Exact → Exact → Option Ordering
  | .nan, _ => none
  | _, .nan => none
  | .infinite s, .infinite t => some (if s = t then .eq else if s then .lt else .gt)
  | .infinite s, .rational _ => some (if s then .lt else .gt)
  | .rational _, .infinite s => some (if s then .gt else .lt)
  | .rational p, .rational q => some (cmp p q)

/-- Parts that some double has. -/
def Valid (p : Double.Parts) : Prop :=
  ∀ negative m e, p = .finite negative m e → Canonical m e ∧ e ≤ 971

theorem valid_parts (x : Float) : Valid (Double.parts x) :=
  fun _ _ _ h => canonical_of_partsOfBits h

theorem unpack_toModel (x : Float) : x.toModel.unpack = unpackedOf (Double.parts x) :=
  unpack_eq x.toModel.toBits.toBitVec

theorem compare_unpackedOf {p q : Double.Parts} (hp : Valid p) (hq : Valid q) :
    (unpackedOf p).compare (unpackedOf q) = (ofParts p).compare (ofParts q) := by
  cases p with
  | nan => cases q <;> simp [unpackedOf, ofParts, UnpackedFloat.compare, Exact.compare]
  | infinite s =>
    cases q with
    | nan => cases s <;> rfl
    | infinite t => cases s <;> cases t <;> rfl
    | finite t m e =>
      cases s <;> by_cases hm : m = 0 <;>
        simp [unpackedOf, ofParts, signOf, UnpackedFloat.compare, Exact.compare, hm]
  | finite s m e =>
    cases q with
    | nan =>
      by_cases hm : m = 0 <;>
        simp [unpackedOf, ofParts, UnpackedFloat.compare, Exact.compare, hm]
    | infinite t =>
      cases t <;> by_cases hm : m = 0 <;>
        simp [unpackedOf, ofParts, signOf, UnpackedFloat.compare, Exact.compare, hm]
    | finite t m' e' =>
      have hcmp := cmp_magnitudes (hp s m e rfl).1 (hq t m' e' rfl).1
      have hpos : m ≠ 0 → (0 : ℚ) < m * 2 ^ e := by
        intro hm
        positivity
      have hpos' : m' ≠ 0 → (0 : ℚ) < m' * 2 ^ e' := by
        intro hm
        positivity
      -- A zero has no sign; other numbers are compared by their signs before their magnitudes.
      by_cases hm : m = 0 <;> by_cases hm' : m' = 0
      · simp [unpackedOf, ofParts, UnpackedFloat.compare, Exact.compare, hm, hm']
      · cases t <;>
          simp [unpackedOf, ofParts, signOf, UnpackedFloat.compare, Exact.compare, hm, hm',
            eq_comm (b := cmp _ _), cmp_eq_lt_iff, cmp_eq_gt_iff, hpos' hm']
      · cases s <;>
          simp [unpackedOf, ofParts, signOf, UnpackedFloat.compare, Exact.compare, hm, hm',
            eq_comm (b := cmp _ _), cmp_eq_lt_iff, cmp_eq_gt_iff, hpos hm]
      · have hA := hpos hm
        have hA' := hpos' hm'
        cases s <;> cases t <;>
          simp only [unpackedOf, ofParts, signOf, UnpackedFloat.compare, Exact.compare, hm, hm',
            dite_false, if_true, if_false, Bool.false_eq_true, Option.some.injEq, neg_mul]
        · exact hcmp.symm
        · exact ((cmp_eq_gt_iff _ _).mpr (by linarith)).symm
        · exact ((cmp_eq_lt_iff _ _).mpr (by linarith)).symm
        · rw [← hcmp, cmp_swap, neg_eq_neg_one_mul, neg_eq_neg_one_mul ((m' : ℚ) * 2 ^ e'),
            cmp_mul_neg_left (by norm_num)]

theorem ofDouble_pack_zero (s : Sign) : ofDouble (.ofModel (.pack (.zero s))) = .rational 0 := by
  rw [ofDouble, parts_pack_zero]
  cases s <;> simp [ofParts, isNegative]

/-- Packing loses nothing of a double. -/
theorem ofDouble_pack_unpackedOf {p : Double.Parts} (h : Valid p) :
    ofDouble (.ofModel (.pack (unpackedOf p))) = ofParts p := by
  cases p with
  | nan => rw [ofDouble, unpackedOf, parts_pack_nan]
  | infinite negative =>
    rw [ofDouble, unpackedOf, parts_pack_infinity]
    cases negative <;> rfl
  | finite negative m e =>
    obtain ⟨hcanonical, he⟩ := h negative m e rfl
    by_cases hm : m = 0
    · simp only [unpackedOf, hm, dite_true, ofDouble_pack_zero]
      simp [ofParts]
    · simp only [unpackedOf, hm, dite_false, ofDouble,
        parts_pack_finite _ (Nat.pos_of_ne_zero hm) hcanonical, if_pos he]
      cases negative <;> rfl

def abs : Exact → Exact
  | .nan => .nan
  | .infinite _ => .infinite false
  | .rational q => .rational |q|

theorem ofDouble_abs (x : Float) : ofDouble x.abs = (ofDouble x).abs := by
  have habs : x.abs = .ofModel (.pack x.toModel.unpack.abs) := rfl
  have hvalid := valid_parts x
  rw [habs, unpack_toModel, ofDouble.eq_def x]
  cases hx : Double.parts x with
  | nan => exact ofDouble_pack_unpackedOf (p := .nan) (by simp [Valid])
  | infinite negative => exact ofDouble_pack_unpackedOf (p := .infinite false) (by simp [Valid])
  | finite negative m e =>
    have hsame : (unpackedOf (.finite negative m e)).abs = unpackedOf (.finite false m e) := by
      by_cases hm : m = 0 <;> simp [unpackedOf, hm, UnpackedFloat.abs, signOf]
    have hpos : (0 : ℚ) ≤ m * 2 ^ e := by positivity
    have hunsigned : Valid (.finite false m e) := by
      intro _ _ _ h
      cases h
      exact hvalid _ _ _ hx
    rw [hsame, ofDouble_pack_unpackedOf hunsigned]
    cases negative <;> simp [ofParts, abs, abs_of_nonneg hpos]

def ofNumber : Number → Exact
  | .int i => .rational i
  | .float x => ofDouble x

theorem float_compare (x y : Float) :
    x.toModel.unpack.compare y.toModel.unpack = (ofDouble x).compare (ofDouble y) := by
  rw [unpack_toModel, unpack_toModel]
  exact compare_unpackedOf (valid_parts x) (valid_parts y)

theorem float_lt_iff (x y : Float) : x < y ↔ (ofDouble x).compare (ofDouble y) = some .lt := by
  have hmodel : x < y ↔ (x.toModel.unpack.compare y.toModel.unpack == some .lt) = true :=
    decide_eq_true_iff
  rw [← float_compare, hmodel, beq_iff_eq]

theorem float_beq_iff (x y : Float) :
    (x == y) = true ↔ (ofDouble x).compare (ofDouble y) = some .eq := by
  rw [← float_compare]
  show (x.toModel.unpack.compare y.toModel.unpack == some .eq) = true ↔ _
  exact beq_iff_eq

theorem compare_swap (a b : Exact) : (a.compare b).map Ordering.swap = b.compare a := by
  cases a with
  | nan => cases b <;> rfl
  | infinite s =>
    cases b with
    | infinite t => cases s <;> cases t <;> rfl
    | _ => cases s <;> rfl
  | rational p =>
    cases b with
    | nan => rfl
    | infinite t => cases t <;> rfl
    | rational q => simp [Exact.compare, cmp_swap]

theorem compareInt_eq (x : Float) (i : Int) :
    Double.compareInt x i = (ofDouble x).compare (.rational i) := by
  unfold Double.compareInt ofDouble
  cases Double.parts x with
  | nan => rfl
  | infinite s => rfl
  | finite s m e =>
    simp only [ofParts, Exact.compare]
    split
    · next he =>
      obtain ⟨n, rfl⟩ := Int.eq_ofNat_of_zero_le he
      rw [← cmp_eq_compare, ← (Int.cast_strictMono (R := ℚ)).cmp_map_eq]
      cases s <;> simp [twoTo_eq]
    · next he =>
      obtain ⟨n, hn⟩ := Int.eq_ofNat_of_zero_le (show 0 ≤ -e by omega)
      obtain rfl : e = -(n : ℤ) := by omega
      have hpos : (0 : ℚ) < 2 ^ n := by positivity
      have hscale := cmp_mul_pos_right hpos ((if s then -(m : ℚ) else m) * 2 ^ (-(n : ℤ))) i
      rw [zpow_neg, zpow_natCast, inv_mul_cancel_right₀ hpos.ne'] at hscale
      rw [← cmp_eq_compare, ← (Int.cast_strictMono (R := ℚ)).cmp_map_eq, zpow_neg, zpow_natCast,
        ← hscale]
      cases s <;> simp [twoTo_eq]

/-- Numbers are ordered by what they stand for. -/
theorem order_eq (a b : Number) : a.order b = (ofNumber a).compare (ofNumber b) := by
  cases a with
  | int i =>
    cases b with
    | int j =>
      simp [Number.order, ofNumber, Exact.compare, Int.cast_strictMono.cmp_map_eq, cmp_eq_compare]
    | float y => simp only [Number.order, ofNumber, compareInt_eq, compare_swap]
  | float x =>
    cases b with
    | int j => exact compareInt_eq x j
    | float y =>
      have hlt := float_lt_iff x y
      have heq := float_beq_iff x y
      have hgt := float_lt_iff y x
      rw [← compare_swap] at hgt
      simp only [Number.order, ofNumber]
      cases h : (ofDouble x).compare (ofDouble y) with
      | none => simp_all
      | some o => cases o <;> simp_all

theorem holds_rational {c : Comparison} {m n : Number} {p q : ℚ} (hm : ofNumber m = .rational p)
    (hn : ofNumber n = .rational q) : m.compare c n = c.holds (cmp p q) := by
  simp only [Number.compare, order_eq, hm, hn, Exact.compare]

theorem not_lt_int {m : Number} {q : ℚ} (hm : ofNumber m = .rational q) (i : ℤ) :
    m.compare .lt (.int i) = false ↔ (i : ℚ) ≤ q := by
  rw [holds_rational hm rfl]
  simp [Comparison.holds, cmp_eq_lt_iff]

theorem not_gt_int {m : Number} {q : ℚ} (hm : ofNumber m = .rational q) (i : ℤ) :
    m.compare .gt (.int i) = false ↔ q ≤ i := by
  rw [holds_rational hm rfl]
  simp [Comparison.holds, cmp_eq_gt_iff]

/-- Nothing infinite lies between two integers. -/
theorem between_ints {m : Number} {i j : ℤ} (hnan : ofNumber m ≠ .nan)
    (hlow : m.compare .lt (.int i) = false) (hhigh : m.compare .gt (.int j) = false) :
    ∃ q, ofNumber m = .rational q ∧ i ≤ q ∧ q ≤ j := by
  cases hm : ofNumber m with
  | nan => exact absurd hm hnan
  | infinite s =>
    simp only [Number.compare, order_eq, hm] at hlow hhigh
    cases s <;> simp [ofNumber, Exact.compare, Comparison.holds] at hlow hhigh
  | rational q => exact ⟨q, rfl, (not_lt_int hm i).mp hlow, (not_gt_int hm j).mp hhigh⟩

theorem isFinite_iff {x : Float} : Double.isFinite x = true ↔ ∃ q, ofDouble x = .rational q := by
  unfold Double.isFinite ofDouble
  cases Double.parts x <;> simp [ofParts]

theorem isNaN_iff {x : Float} : Double.isNaN x = true ↔ ofDouble x = .nan := by
  unfold Double.isNaN ofDouble
  cases Double.parts x <;> simp [ofParts]

/-- A double with an integral value is an integer. -/
theorem ofDouble_of_isIntegral {x : Float} (h : Double.isIntegral x = true) :
    ∃ n : ℤ, ofDouble x = .rational n := by
  unfold Double.isIntegral at h
  unfold ofDouble
  cases hx : Double.parts x with
  | nan => simp [hx] at h
  | infinite s => simp [hx] at h
  | finite negative m e =>
    simp only [hx, Bool.or_eq_true, decide_eq_true_eq, beq_iff_eq, twoTo_eq] at h
    obtain ⟨n, hn⟩ : ∃ n : ℕ, (m : ℚ) * 2 ^ e = n := by
      rcases h with he | hdvd
      · obtain ⟨j, rfl⟩ := Int.eq_ofNat_of_zero_le he
        exact ⟨m * 2 ^ j, by push_cast; rfl⟩
      · by_cases he : 0 ≤ e
        · obtain ⟨j, rfl⟩ := Int.eq_ofNat_of_zero_le he
          exact ⟨m * 2 ^ j, by push_cast; rfl⟩
        · obtain ⟨j, hj⟩ := Int.eq_ofNat_of_zero_le (show 0 ≤ -e by omega)
          obtain rfl : e = -(j : ℤ) := by omega
          obtain ⟨n, rfl⟩ := Nat.dvd_of_mod_eq_zero hdvd
          refine ⟨n, ?_⟩
          rw [neg_neg, Int.toNat_natCast, zpow_neg, zpow_natCast]
          push_cast
          field_simp
    cases negative
    · exact ⟨n, by simp [ofParts, hn]⟩
    · exact ⟨-n, by simp [ofParts, hn]⟩

/-- A double that is an integer has an integral value. -/
theorem isIntegral_of_ofDouble {x : Float} {n : ℤ} (h : ofDouble x = .rational n) :
    Double.isIntegral x = true := by
  unfold ofDouble at h
  unfold Double.isIntegral
  cases hx : Double.parts x with
  | nan => simp [hx, ofParts] at h
  | infinite s => simp [hx, ofParts] at h
  | finite negative m e =>
    simp only [hx, ofParts, Exact.rational.injEq] at h
    simp only [Bool.or_eq_true, decide_eq_true_eq, beq_iff_eq, twoTo_eq]
    by_cases he : 0 ≤ e
    · exact .inl he
    · obtain ⟨j, hj⟩ := Int.eq_ofNat_of_zero_le (show 0 ≤ -e by omega)
      obtain rfl : e = -(j : ℤ) := by omega
      have hmantissa : (m : ℤ) = (if negative then -n else n) * 2 ^ j := by
        have hcast : (m : ℚ) = (if negative then -n else n : ℤ) * 2 ^ j := by
          rw [zpow_neg, zpow_natCast, ← div_eq_mul_inv, div_eq_iff (by positivity)] at h
          cases negative
          · simpa using h
          · simp only [if_true] at h ⊢
            push_cast
            linarith
        exact_mod_cast hcast
      refine .inr (Nat.mod_eq_zero_of_dvd ?_)
      rw [neg_neg, Int.toNat_natCast]
      have hdvd : ((2 ^ j : ℕ) : ℤ) ∣ m := by
        rw [hmantissa]
        exact_mod_cast Dvd.intro_left _ rfl
      exact Int.natCast_dvd_natCast.mp hdvd

end Exact
end DecisionGate
