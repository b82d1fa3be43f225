import DecisionGate.Criteria.Lexeme
import DecisionGate.Numeric.Reader
import DecisionGate.Proofs.Conversion

/-!
# Numerals

A numeral is digits of any script with at most one point and a sign. It stands for a rational
number, and the double that it is read as is the nearest one. Far out of range the size of a numeral
decides on its own; the bounds there are wide enough for that.
-/
namespace DecisionGate

/-- What is scanned ends at the first that does not belong to it. -/
theorem takeWhile_dropWhile_append {α : Type} {p : α → Bool} {xs : List α} {x : α}
    (hxs : ∀ y ∈ xs, p y = true) (hx : p x = false) (rest : List α) :
    (xs ++ x :: rest).takeWhile p = xs ∧ (xs ++ x :: rest).dropWhile p = x :: rest := by
  constructor
  · rw [List.takeWhile_append_of_pos hxs, List.takeWhile_cons_of_neg (by simp [hx]),
      List.append_nil]
  · rw [List.dropWhile_append_of_pos hxs, List.dropWhile_cons_of_neg (by simp [hx])]

/-- A digit lies in the row of ten that begins with a zero. -/
theorem Text.exists_zero_of_isDigit {c : Char} (h : isDigit c = true) :
    ∃ z d, z ∈ digitZeros ∧ digitValue? c = some d ∧ (z ≤ c.toNat ∧ c.toNat < z + 10) ∧
      c.toNat - z = d := by
  obtain ⟨d, hd⟩ := Option.isSome_iff_exists.mp h
  obtain ⟨z, hfound, hvalue⟩ := Option.map_eq_some_iff.mp hd
  have hrange : z ≤ c.toNat ∧ c.toNat < z + 10 := by simpa using List.find?_some hfound
  exact ⟨z, d, List.mem_of_find?_eq_some hfound, hd, hrange, hvalue⟩

namespace Exact

/-- The infinity of a sign. -/
def infinityOf (negative : Bool) : Float :=
  if negative then Double.negInfinity else Double.infinity

theorem ofDouble_infinityOf (negative : Bool) :
    ofDouble (infinityOf negative) = .infinite negative := by
  cases negative with
  | false =>
    rw [infinityOf, if_neg Bool.false_ne_true, Double.infinity, ofDouble_ofBits (by decide)]
    decide
  | true =>
    rw [infinityOf, if_pos rfl, Double.negInfinity, ofDouble_ofBits (by decide)]
    decide

/-- A number past the largest double is nearest to an infinity. -/
theorem nearest_infinityOf {q : ℚ} {n k : ℤ} (negative : Bool) (h : Rounds q n k)
    (hlimit : (2 : ℚ) ^ (1024 : ℤ) ≤ n * 2 ^ k) :
    Nearest (signed negative q) (infinityOf negative) := by
  have hpos : (0 : ℚ) < n * 2 ^ k := lt_of_lt_of_le (by positivity) hlimit
  refine ⟨_, _, rounds_signed_quotient negative h, ?_⟩
  rw [ofDouble_infinityOf, clamp]
  cases negative with
  | false =>
    have hlarge : ¬ |(n : ℚ) * 2 ^ k| < 2 ^ (1024 : ℤ) := by
      rw [abs_of_pos hpos]
      exact not_lt.mpr hlimit
    simp only [Bool.false_eq_true, if_false]
    rw [if_neg hlarge, decide_eq_false (not_lt.mpr hpos.le)]
  | true =>
    have hnegated : ((-n : ℤ) : ℚ) * 2 ^ k = -(n * 2 ^ k) := by
      push_cast
      ring
    have hlarge : ¬ |-((n : ℚ) * 2 ^ k)| < 2 ^ (1024 : ℤ) := by
      rw [abs_neg, abs_of_pos hpos]
      exact not_lt.mpr hlimit
    simp only [if_true]
    rw [hnegated, if_neg hlarge, decide_eq_true (neg_lt_zero.mpr hpos)]

/-- A quotient is read as the nearest double, an infinity when it is too large. -/
theorem nearest_ofRatio (negative : Bool) (num : Nat) {den : Nat} (hden : den ≠ 0) :
    Nearest (signed negative (num / den))
      ((Double.ofRatio? negative num den).getD (infinityOf negative)) := by
  cases h : Double.ofRatio? negative num den with
  | some x =>
    obtain ⟨n, k, hrounds, hx⟩ := ofDouble_ofRatio hden h
    exact ⟨n, k, hrounds, hx.trans (clamp_of_ofDouble hx).symm⟩
  | none =>
    obtain ⟨n, k, hrounds, hlimit⟩ := limit_le_of_ofRatio hden h
    exact nearest_infinityOf negative hrounds hlimit

theorem abs_signed (negative : Bool) (q : ℚ) : |signed negative q| = |q| := by
  cases negative
  · rfl
  · exact abs_neg q

/-- The limit has a mantissa as doubles have it, and rounding keeps the order. -/
theorem Rounds.limit_le {q : ℚ} {n k : ℤ} (h : Rounds q n k) (hq : (2 : ℚ) ^ (1024 : ℤ) < q) :
    (2 : ℚ) ^ (1024 : ℤ) ≤ n * 2 ^ k := by
  have hcanonical : Canonical (2 ^ 52) 972 := ⟨by norm_num, by norm_num, .inl le_rfl⟩
  have hsplit : (2 : ℚ) ^ (1024 : ℤ) = 2 ^ (52 : ℤ) * 2 ^ (972 : ℤ) := zpow_add₀ two_ne_zero 52 972
  have hmantissa : (2 : ℚ) ^ (52 : ℤ) = (2 ^ 52 : ℕ) := by norm_num
  rw [hsplit, hmantissa] at hq ⊢
  have hle := (rounds_canonical hcanonical).mono h hq
  rwa [Int.cast_natCast] at hle

/-- A number of less than half the least unit is rounded to zero. -/
theorem rounds_tiny {q : ℚ} (h : |q| ≤ 2 ^ (-1075 : ℤ)) : Rounds q 0 (-1074) := by
  refine ⟨?_, ?_, le_rfl, .inr rfl⟩
  · rw [Int.cast_zero, zero_mul, zero_sub, abs_neg]
    calc 2 * |q| ≤ 2 * 2 ^ (-1075 : ℤ) := by gcongr
      _ = 2 ^ (-1074 : ℤ) := by rw [mul_comm, ← zpow_add_one₀ two_ne_zero]; rfl
  · exact lt_of_le_of_lt h (zpow_lt_zpow_right₀ one_lt_two (by norm_num))

end Exact

namespace Decimal

open Exact

/-- Every ten places of two are more than three places of ten. -/
theorem ten_pow_le_two_pow (L : Nat) : (10 : ℚ) ^ (3 * (L / 10)) ≤ 2 ^ L := by
  calc (10 : ℚ) ^ (3 * (L / 10)) = (10 ^ 3) ^ (L / 10) := pow_mul _ _ _
    _ ≤ (2 ^ 10) ^ (L / 10) := by gcongr; norm_num
    _ = 2 ^ (10 * (L / 10)) := (pow_mul _ _ _).symm
    _ ≤ 2 ^ L := pow_le_pow_right₀ one_le_two (Nat.mul_div_le L 10)

/-- Every hundred places of two are less than thirty-one places of ten. -/
theorem two_pow_le_ten_pow (L : Nat) : (2 : ℚ) ^ (L + 1) ≤ 10 ^ (31 * (L / 100 + 1)) := by
  calc (2 : ℚ) ^ (L + 1) ≤ 2 ^ (100 * (L / 100 + 1)) :=
        pow_le_pow_right₀ one_le_two (by omega)
    _ = (2 ^ 100) ^ (L / 100 + 1) := pow_mul _ _ _
    _ ≤ (10 ^ 31) ^ (L / 100 + 1) := by gcongr; norm_num
    _ = 10 ^ (31 * (L / 100 + 1)) := (pow_mul _ _ _).symm

/-- Three places of two are less than one of ten. -/
theorem two_zpow_le_ten_zpow {k : Int} {n : Nat} (h : k ≤ 3 * n) : (2 : ℚ) ^ k ≤ 10 ^ (n : ℤ) := by
  calc (2 : ℚ) ^ k ≤ 2 ^ (3 * (n : ℤ)) := zpow_le_zpow_right₀ one_le_two h
    _ = (2 ^ (3 : ℤ)) ^ (n : ℤ) := zpow_mul _ _ _
    _ = 8 ^ n := by norm_num
    _ ≤ 10 ^ n := by gcongr; norm_num
    _ = 10 ^ (n : ℤ) := (zpow_natCast _ _).symm

variable {m : Nat} {e : Int}

/-- What the size of a numeral says is too small for a double is so. -/
theorem tiny_of_size (hm : m ≠ 0)
    (h : (m.log2 : Int) * 3 / 10 + e < -400 - (m.log2 : Int) / 100) :
    (m : ℚ) * 10 ^ e ≤ 2 ^ (-1075 : ℤ) := by
  obtain ⟨-, hhigh⟩ := log2_bounds hm
  have hexponent : (31 * (m.log2 / 100 + 1) : ℕ) + e ≤ (-360 : ℤ) := by
    push_cast
    omega
  calc (m : ℚ) * 10 ^ e ≤ 2 ^ ((m.log2 : ℤ) + 1) * 10 ^ e := by gcongr
    _ = 2 ^ (m.log2 + 1) * 10 ^ e := by norm_cast
    _ ≤ 10 ^ (31 * (m.log2 / 100 + 1)) * 10 ^ e := by gcongr; exact two_pow_le_ten_pow _
    _ = 10 ^ ((31 * (m.log2 / 100 + 1) : ℕ) + e) := by
      rw [zpow_add₀ (by norm_num), zpow_natCast]
    _ ≤ 10 ^ (-360 : ℤ) := zpow_le_zpow_right₀ (by norm_num) hexponent
    _ ≤ 2 ^ (-1075 : ℤ) := by
      rw [zpow_neg, zpow_neg]
      exact inv_anti₀ (by positivity) (two_zpow_le_ten_zpow (n := 360) (by norm_num))

/-- What the size of a numeral says is too large for a double is so. -/
theorem limit_lt_of_size (hm : m ≠ 0) (h : 400 < (m.log2 : Int) * 3 / 10 + e) :
    (2 : ℚ) ^ (1024 : ℤ) < m * 10 ^ e := by
  obtain ⟨hlow, -⟩ := log2_bounds hm
  have hexponent : (390 : ℤ) ≤ (3 * (m.log2 / 10) : ℕ) + e := by
    push_cast
    omega
  calc (2 : ℚ) ^ (1024 : ℤ) ≤ 10 ^ (342 : ℤ) := two_zpow_le_ten_zpow (n := 342) (by norm_num)
    _ < 10 ^ (390 : ℤ) := zpow_lt_zpow_right₀ (by norm_num) (by norm_num)
    _ ≤ 10 ^ ((3 * (m.log2 / 10) : ℕ) + e) := zpow_le_zpow_right₀ (by norm_num) hexponent
    _ = 10 ^ (3 * (m.log2 / 10)) * 10 ^ e := by rw [zpow_add₀ (by norm_num), zpow_natCast]
    _ ≤ 2 ^ m.log2 * 10 ^ e := by gcongr; exact ten_pow_le_two_pow _
    _ = 2 ^ (m.log2 : ℤ) * 10 ^ e := by rw [zpow_natCast]
    _ ≤ m * 10 ^ e := by gcongr

theorem tenTo_eq (n : Nat) : tenTo n = 10 ^ n := rfl

/-- The parts of a numeral as a quotient. -/
theorem ratio_eq (m : Nat) (e : Int) :
    ∃ num den : Nat, den ≠ 0 ∧ (num : ℚ) / den = m * 10 ^ e ∧
      (if 0 ≤ e then (m * tenTo e.toNat, 1) else (m, tenTo (-e).toNat)) = (num, den) := by
  split
  · next he =>
    obtain ⟨j, rfl⟩ := Int.eq_ofNat_of_zero_le he
    exact ⟨m * tenTo j, 1, one_ne_zero, by simp [tenTo_eq], rfl⟩
  · next he =>
    obtain ⟨j, hj⟩ := Int.eq_ofNat_of_zero_le (show 0 ≤ -e by omega)
    obtain rfl : e = -(j : ℤ) := by omega
    exact ⟨m, tenTo j, by simp [tenTo_eq], by simp [tenTo_eq, div_eq_mul_inv], by simp⟩

/-- A decimal is read as the nearest double. -/
theorem nearest_toDouble (negative : Bool) (m : Nat) (e : Int) :
    Nearest (signed negative (m * 10 ^ e)) (toDouble negative m e) := by
  obtain ⟨num, den, hden, hvalue, hratio⟩ := ratio_eq m e
  have hinfinite : (if negative then Double.negInfinity else Double.infinity) =
      infinityOf negative := rfl
  simp only [toDouble, hinfinite, hratio]
  split
  · next hzero =>
    have htiny : |signed negative ((m : ℚ) * 10 ^ e)| ≤ 2 ^ (-1075 : ℤ) := by
      rw [abs_signed, abs_of_nonneg (by positivity)]
      by_cases hm : m = 0
      · rw [hm, Nat.cast_zero, zero_mul]
        positivity
      · exact tiny_of_size hm (hzero.resolve_left hm)
    refine ⟨0, -1074, rounds_tiny htiny, ?_⟩
    obtain ⟨x, hx, hvalue⟩ := ofDouble_ofRatio_zero negative 1
    rw [Int.cast_zero, zero_mul, clamp_zero, hx, Option.getD_some, hvalue]
  · next hsize =>
    obtain ⟨hm, -⟩ := not_or.mp hsize
    split
    · next hlarge =>
      have hlimit := limit_lt_of_size hm hlarge
      have hnum : num ≠ 0 := by
        intro hnum
        rw [← hvalue, hnum, Nat.cast_zero, zero_div] at hlimit
        have hpos : (0 : ℚ) < 2 ^ (1024 : ℤ) := by positivity
        exact lt_irrefl 0 (hpos.trans hlimit)
      obtain ⟨E, N, hrounds, -, -, -⟩ := bitsOfRatio_eq hnum hden
      rw [hvalue] at hrounds
      exact nearest_infinityOf negative hrounds (hrounds.limit_le hlimit)
    · rw [← hvalue]
      exact nearest_ofRatio negative num hden

/-- The characters of a numeral in the common form of its digits, but for its sign. -/
def commonChars : List Char := ['.', '0', '1', '2', '3', '4', '5', '6', '7', '8', '9']

theorem mem_commonChars {c : Char} (h : isAsciiDigit c = true) : c ∈ commonChars := by
  simp only [isAsciiDigit, Bool.and_eq_true, decide_eq_true_eq, Char.le_def] at h
  obtain ⟨hlow, hhigh⟩ : 48 ≤ c.toNat ∧ c.toNat ≤ 57 := h
  have hall : ∀ k < 10, Char.ofNat (48 + k) ∈ commonChars := by decide
  have hmem := hall (c.toNat - 48) (by omega)
  rwa [Nat.add_sub_cancel' hlow, Char.ofNat_toNat] at hmem

/-- A digit of any script in its common form is worth the same. -/
theorem plainChar_digit {c : Char} (h : Text.isDigit c = true) :
    isAsciiDigit (plainChar c) = true ∧
      (plainChar c).toNat - '0'.toNat = (Text.digitValue? c).getD 0 := by
  obtain ⟨z, d, hmem, hd, hrange, hvalue⟩ := Text.exists_zero_of_isDigit h
  rw [hd, Option.getD_some]
  by_cases hascii : c.toNat < 128
  · have hzero : z = 0x30 := by
      have hfirst : ∀ z ∈ Text.digitZeros, z < 128 → z = 0x30 := by decide
      exact hfirst z hmem (by omega)
    rw [plainChar, if_pos hascii]
    subst hzero
    refine ⟨?_, hvalue⟩
    simp only [isAsciiDigit, Bool.and_eq_true, decide_eq_true_eq, Char.le_def]
    exact ⟨hrange.1, Nat.le_of_lt_succ hrange.2⟩
  · have hblank : Text.isBlank c = false := by
      have happart : ∀ z ∈ Text.digitZeros, ∀ b ∈ Text.blanks, ¬ (z ≤ b ∧ b < z + 10) := by decide
      by_contra hblank
      have hblank : c.toNat ∈ Text.blanks := by simpa [Text.isBlank] using hblank
      exact happart z hmem _ hblank hrange
    have hsmall : d < 10 := by omega
    have hcommon : ∀ d < 10, isAsciiDigit (Char.ofNat ('0'.toNat + d)) = true ∧
        (Char.ofNat ('0'.toNat + d)).toNat - '0'.toNat = d := by decide
    rw [plainChar, if_neg hascii, hblank]
    simp only [Bool.false_eq_true, if_false, hd]
    exact hcommon d hsmall

/-- The number that digits of any script stand for. -/
def digitsValue (ds : List Char) : Nat :=
  ds.foldl (fun n c => n * 10 + (Text.digitValue? c).getD 0) 0

/-- Digits with a point between them, or without; there is a digit on one side of it. -/
structure Unsigned (w whole fraction : List Char) : Prop where
  digits : ∀ c ∈ whole ++ fraction, Text.isDigit c = true
  nonempty : whole ++ fraction ≠ []
  text : w = whole ++ '.' :: fraction ∨ w = whole ∧ fraction = []

/-- The number that the digits around a point stand for. -/
def decimal (whole fraction : List Char) : ℚ :=
  digitsValue (whole ++ fraction) / 10 ^ fraction.length

/-- A numeral stands for a rational number. -/
inductive Denotes : List Char → ℚ → Prop
  | plain {w whole fraction : List Char} : Unsigned w whole fraction →
      Denotes w (decimal whole fraction)
  | plus {w whole fraction : List Char} : Unsigned w whole fraction →
      Denotes ('+' :: w) (decimal whole fraction)
  | minus {w whole fraction : List Char} : Unsigned w whole fraction →
      Denotes ('-' :: w) (-decimal whole fraction)

theorem natOfDigits_plain {ds : List Char} (h : ∀ c ∈ ds, Text.isDigit c = true) :
    natOfDigits (ds.map plainChar) = digitsValue ds := by
  have hfrom (n : Nat) : (ds.map plainChar).foldl (fun n c => n * 10 + (c.toNat - '0'.toNat)) n =
      ds.foldl (fun n c => n * 10 + (Text.digitValue? c).getD 0) n := by
    induction ds generalizing n with
    | nil => rfl
    | cons c ds ih =>
      rw [List.map_cons, List.foldl_cons, List.foldl_cons, (plainChar_digit (h c (by simp))).2]
      exact ih (fun d hd => h d (List.mem_cons_of_mem c hd)) _
  exact hfrom 0

theorem trimBy_of_all {p : Char → Bool} {cs : List Char} (h : ∀ c ∈ cs, p c = false) :
    Text.trimBy p cs = cs := by
  have hdrop {cs : List Char} (h : ∀ c ∈ cs, p c = false) : cs.dropWhile p = cs := by
    cases cs with
    | nil => rfl
    | cons c cs => exact List.dropWhile_cons_of_neg (by simp [h c])
  have hreverse : ∀ c ∈ cs.reverse, p c = false := fun c hc => h c (List.mem_reverse.mp hc)
  rw [Text.trimBy, hdrop h, hdrop hreverse, List.reverse_reverse]

theorem closeUnderscores_of_all {cs : List Char} (h : ∀ c ∈ cs, c ≠ '_') {previous : Char}
    (hprevious : previous ≠ '_') : closeUnderscores? previous cs = some cs := by
  induction cs generalizing previous with
  | nil => simp [closeUnderscores?, hprevious]
  | cons c cs ih =>
    have hc : c ≠ '_' := h c List.mem_cons_self
    have hrest := ih (fun d hd => h d (List.mem_cons_of_mem c hd)) hc
    rw [closeUnderscores?.eq_3 previous c cs hc, hrest]
    simp [hprevious]

/-- The names of the numbers without digits begin with a letter. -/
theorem namedValue_of_common {negative : Bool} {c : Char} {cs : List Char} (h : c ∈ commonChars) :
    namedValue? negative (c :: cs) = none := by
  have hletters : ∀ c ∈ commonChars, c.toLower ≠ 'i' ∧ c.toLower ≠ 'n' := by
    simp [commonChars]
  obtain ⟨hi, hn⟩ := hletters c h
  unfold namedValue?
  split
  · next hname =>
    have hhead := congrArg String.toList hname
    simp [hi] at hhead
  · next hname =>
    have hhead := congrArg String.toList hname
    simp [hi] at hhead
  · next hname =>
    have hhead := congrArg String.toList hname
    simp [hn] at hhead
  · rfl

section
variable {w whole fraction : List Char} (h : Unsigned w whole fraction)
include h

/-- A numeral without a sign in its common form. -/
theorem Unsigned.plain :
    (∀ c ∈ whole.map plainChar, isAsciiDigit c = true) ∧
      (∀ c ∈ fraction.map plainChar, isAsciiDigit c = true) ∧
      (w.map plainChar = whole.map plainChar ++ '.' :: fraction.map plainChar ∨
        w.map plainChar = whole.map plainChar ∧ fraction = []) := by
  have hdigits {ds : List Char} (hds : ∀ c ∈ ds, c ∈ whole ++ fraction) :
      ∀ c ∈ ds.map plainChar, isAsciiDigit c = true := by
    intro c hc
    obtain ⟨d, hd, rfl⟩ := List.mem_map.mp hc
    exact (plainChar_digit (h.digits d (hds d hd))).1
  refine ⟨hdigits fun c hc => List.mem_append_left _ hc,
    hdigits fun c hc => List.mem_append_right _ hc, ?_⟩
  rcases h.text with rfl | ⟨rfl, hnone⟩
  · refine .inl ?_
    rw [List.map_append, List.map_cons]
    rfl
  · exact .inr ⟨rfl, hnone⟩

theorem Unsigned.common : ∀ c ∈ w.map plainChar, c ∈ commonChars := by
  obtain ⟨hwhole, hfraction, htext⟩ := h.plain
  intro c hc
  rcases htext with htext | ⟨htext, -⟩
  · rw [htext] at hc
    rcases List.mem_append.mp hc with hc | hc
    · exact mem_commonChars (hwhole c hc)
    · rcases List.mem_cons.mp hc with rfl | hc
      · exact List.mem_cons_self
      · exact mem_commonChars (hfraction c hc)
  · rw [htext] at hc
    exact mem_commonChars (hwhole c hc)

theorem Unsigned.ne_nil : w ≠ [] := by
  rintro rfl
  rcases h.text with htext | ⟨htext, hnone⟩
  · simp at htext
  · exact h.nonempty (by rw [← htext, hnone]; rfl)

/-- The digits of a numeral are taken apart where its point is. -/
theorem Unsigned.read {negative : Bool} {cs : List Char}
    (hsign : takeSign cs = (negative, w.map plainChar)) :
    Numeral.read? cs = some ⟨negative, whole.map plainChar, fraction.map plainChar, 0⟩ := by
  obtain ⟨hwhole, hfraction, htext⟩ := h.plain
  have hpoint : isAsciiDigit '.' = false := by decide
  have hnonempty : ((whole.map plainChar).isEmpty && (fraction.map plainChar).isEmpty) = false := by
    have hne := h.nonempty
    rw [Bool.eq_false_iff]
    intro hempty
    simp at hempty
    simp [hempty] at hne
  unfold Numeral.read?
  rw [hsign]
  rcases htext with htext | ⟨htext, hnone⟩
  · obtain ⟨htake, hdrop⟩ :=
      takeWhile_dropWhile_append hwhole hpoint (fraction.map plainChar)
    have hall := List.takeWhile_eq_self_iff.mpr hfraction
    have hend := List.dropWhile_eq_nil_iff.mpr hfraction
    simp only [htext, htake, hdrop, hall, hend, hnonempty]
    rfl
  · have htake := List.takeWhile_eq_self_iff.mpr hwhole
    have hdrop := List.dropWhile_eq_nil_iff.mpr hwhole
    rw [hnone, List.map_nil] at hnonempty
    simp only [htext, htake, hdrop, hnone, List.map_nil, hnonempty]
    rfl

/-- An unsigned numeral behind a sign, or behind none, is read as the nearest double. -/
theorem Unsigned.nearest {negative : Bool} (front : List Char)
    (hfront : ∀ c ∈ front, c = '+' ∨ c = '-')
    (hsign : takeSign (front ++ w.map plainChar) = (negative, w.map plainChar)) :
    ∃ x, readDouble? (String.ofList (front ++ w)) = some x ∧
      Nearest (signed negative (decimal whole fraction)) x := by
  have hplain : (front ++ w).map plainChar = front ++ w.map plainChar := by
    have hsame : front.map plainChar = front := by
      have heach : ∀ c ∈ front, plainChar c = id c := by
        intro c hc
        rcases hfront c hc with rfl | rfl <;> rfl
      rw [List.map_congr_left heach, List.map_id]
    rw [List.map_append, hsame]
  have hcommon : ∀ c ∈ front ++ w.map plainChar, c ∈ '+' :: '-' :: commonChars := by
    intro c hc
    rcases List.mem_append.mp hc with hc | hc
    · rcases hfront c hc with rfl | rfl
      · exact List.mem_cons_self
      · exact List.mem_cons_of_mem _ List.mem_cons_self
    · exact List.mem_cons_of_mem _ (List.mem_cons_of_mem _ (h.common c hc))
  have hpadding : ∀ c ∈ '+' :: '-' :: commonChars, isPadding c = false ∧ c ≠ '_' := by
    simp [commonChars, isPadding]
  have htrim := trimBy_of_all fun c hc => (hpadding c (hcommon c hc)).1
  have hclosed := closeUnderscores_of_all (fun c hc => (hpadding c (hcommon c hc)).2)
    (show ' ' ≠ '_' by decide)
  obtain ⟨c, cs, hcs⟩ := List.exists_cons_of_ne_nil h.ne_nil
  have hname : namedValue? negative (w.map plainChar) = none := by
    have hc := h.common (plainChar c) (by simp [hcs])
    rw [hcs, List.map_cons]
    exact namedValue_of_common hc
  refine ⟨Numeral.value ⟨negative, whole.map plainChar, fraction.map plainChar, 0⟩, ?_, ?_⟩
  · unfold readDouble?
    rw [String.toList_ofList, hplain, htrim, hclosed]
    simp only [Option.bind_eq_bind, Option.bind_some, hsign, hname, h.read hsign, Option.map_some]
  · have hvalue := nearest_toDouble negative (digitsValue (whole ++ fraction)) (-fraction.length)
    rw [zpow_neg, zpow_natCast, ← div_eq_mul_inv] at hvalue
    rw [Numeral.value, ← List.map_append, natOfDigits_plain h.digits, List.length_map, zero_sub]
    exact hvalue

theorem Unsigned.takeSign_eq : takeSign (w.map plainChar) = (false, w.map plainChar) := by
  obtain ⟨c, cs, hcs⟩ := List.exists_cons_of_ne_nil h.ne_nil
  have hc := h.common (plainChar c) (by simp [hcs])
  rw [hcs, List.map_cons]
  unfold takeSign
  split
  · next hsign =>
    rw [(List.cons.inj hsign).1] at hc
    simp [commonChars] at hc
  · next hsign =>
    rw [(List.cons.inj hsign).1] at hc
    simp [commonChars] at hc
  · rfl

end

/-- A numeral is read as the nearest double. -/
theorem Denotes.nearest {w : List Char} {q : ℚ} (h : Denotes w q) :
    ∃ x, readDouble? (String.ofList w) = some x ∧ Nearest q x := by
  cases h with
  | plain h => exact h.nearest [] nofun h.takeSign_eq
  | plus h => exact h.nearest ['+'] (by simp) rfl
  | minus h => exact h.nearest ['-'] (by simp) rfl

end Decimal

namespace Criteria

open Decimal

/-- Digits with a point between them, or without, as they are looked for. -/
theorem exists_unsigned_iff (w : List Char) :
    (match w.dropWhile Text.isDigit with
      | [] => !(w.takeWhile Text.isDigit).isEmpty
      | '.' :: fraction =>
        (!(w.takeWhile Text.isDigit).isEmpty || !fraction.isEmpty) && fraction.all Text.isDigit
      | _ => false) = true ↔ ∃ whole fraction, Unsigned w whole fraction := by
  constructor
  · intro h
    have hwhole : ∀ c ∈ w.takeWhile Text.isDigit, Text.isDigit c = true :=
      fun c hc => List.mem_takeWhile_imp hc
    have hparts : w.takeWhile Text.isDigit ++ w.dropWhile Text.isDigit = w :=
      List.takeWhile_append_dropWhile
    split at h
    · next hrest =>
      rw [hrest, List.append_nil] at hparts
      refine ⟨w.takeWhile Text.isDigit, [], ?_, ?_, .inr ⟨hparts.symm, rfl⟩⟩
      · simpa using hwhole
      · simpa using h
    · next fraction hrest =>
      rw [hrest] at hparts
      rw [Bool.and_eq_true, List.all_eq_true] at h
      refine ⟨w.takeWhile Text.isDigit, fraction, ?_, ?_, .inl hparts.symm⟩
      · intro c hc
        exact (List.mem_append.mp hc).elim (hwhole c) (h.2 c)
      · intro hnil
        obtain ⟨hnone, hnone'⟩ := List.append_eq_nil_iff.mp hnil
        simp [hnone, hnone'] at h
    · cases h
  · intro h
    obtain ⟨whole, fraction, hdigits, hnonempty, htext⟩ := h
    have hpoint : Text.isDigit '.' = false := by decide
    have hwhole : ∀ c ∈ whole, Text.isDigit c = true := fun c hc => hdigits c (by simp [hc])
    have hfraction : ∀ c ∈ fraction, Text.isDigit c = true := fun c hc => hdigits c (by simp [hc])
    rcases htext with rfl | ⟨rfl, rfl⟩
    · obtain ⟨htake, hdrop⟩ := takeWhile_dropWhile_append hwhole hpoint fraction
      have hsome : (!whole.isEmpty || !fraction.isEmpty) = true := by
        rw [Bool.or_eq_true]
        by_contra hnone
        simp only [not_or, Bool.not_eq_true', Bool.not_eq_false, List.isEmpty_iff] at hnone
        exact hnonempty (by rw [hnone.1, hnone.2]; rfl)
      rw [htake, hdrop]
      simp only [hsome, Bool.true_and, List.all_eq_true]
      exact hfraction
    · have htake := List.takeWhile_eq_self_iff.mpr hwhole
      have hdrop := List.dropWhile_eq_nil_iff.mpr hwhole
      rw [htake, hdrop]
      simpa using hnonempty

theorem Unsigned.head {w whole fraction : List Char} (h : Unsigned w whole fraction) :
    ∃ c cs, w = c :: cs ∧ (Text.isDigit c = true ∨ c = '.') := by
  cases hwhole : whole with
  | cons c cs =>
    have hc := h.digits c (by simp [hwhole])
    rcases h.text with htext | ⟨htext, -⟩
    · exact ⟨c, _, by rw [htext, hwhole, List.cons_append], .inl hc⟩
    · exact ⟨c, cs, htext.trans hwhole, .inl hc⟩
  | nil =>
    rcases h.text with htext | ⟨-, hnone⟩
    · exact ⟨'.', fraction, by rw [htext, hwhole]; rfl, .inr rfl⟩
    · exact absurd (by rw [hwhole, hnone]; rfl) h.nonempty

/-- A numeral has no other sign than the one in front. -/
theorem not_unsigned_of_sign {c : Char} {cs whole fraction : List Char} (hc : c = '+' ∨ c = '-') :
    ¬ Unsigned (c :: cs) whole fraction := by
  intro h
  obtain ⟨d, ds, hd, hfirst⟩ := Unsigned.head h
  obtain ⟨rfl, -⟩ := List.cons.inj hd
  have hno : Text.isDigit c = false ∧ c ≠ '.' := by
    rcases hc with rfl | rfl <;> decide
  rcases hfirst with hdigit | hpoint
  · exact absurd (hno.1.symm.trans hdigit) nofun
  · exact hno.2 hpoint

theorem isNumeral_signed {c : Char} {cs : List Char} (hc : c = '+' ∨ c = '-') :
    isNumeral (c :: cs) = true ↔ ∃ whole fraction, Unsigned cs whole fraction := by
  rcases hc with rfl | rfl
  · exact exists_unsigned_iff cs
  · exact exists_unsigned_iff cs

theorem denotes_signed {c : Char} {cs : List Char} (hc : c = '+' ∨ c = '-') :
    (∃ q, Denotes (c :: cs) q) ↔ ∃ whole fraction, Unsigned cs whole fraction := by
  constructor
  · intro h
    obtain ⟨q, h⟩ := h
    cases h with
    | plain h => exact absurd h (not_unsigned_of_sign hc)
    | plus h => exact ⟨_, _, h⟩
    | minus h => exact ⟨_, _, h⟩
  · intro h
    obtain ⟨whole, fraction, h⟩ := h
    rcases hc with rfl | rfl
    · exact ⟨_, .plus h⟩
    · exact ⟨_, .minus h⟩

/-- The words looked for are those that stand for a number. -/
theorem isNumeral_iff (w : List Char) : isNumeral w = true ↔ ∃ q, Denotes w q := by
  by_cases hsign : ∃ c cs, (c = '+' ∨ c = '-') ∧ w = c :: cs
  · obtain ⟨c, cs, hc, rfl⟩ := hsign
    rw [isNumeral_signed hc, denotes_signed hc]
  have hplain : isNumeral w = true ↔ ∃ whole fraction, Unsigned w whole fraction := by
    rw [← exists_unsigned_iff w, isNumeral.eq_def]
    split
    · exact absurd ⟨'+', _, .inl rfl, rfl⟩ hsign
    · exact absurd ⟨'-', _, .inr rfl, rfl⟩ hsign
    · rfl
  rw [hplain]
  constructor
  · intro h
    obtain ⟨whole, fraction, h⟩ := h
    exact ⟨_, .plain h⟩
  · intro h
    obtain ⟨q, h⟩ := h
    cases h with
    | plain h => exact ⟨_, _, h⟩
    | plus h => exact absurd ⟨'+', _, .inl rfl, rfl⟩ hsign
    | minus h => exact absurd ⟨'-', _, .inr rfl, rfl⟩ hsign

end Criteria

end DecisionGate
