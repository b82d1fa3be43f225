import DecisionGate.Proofs.Rationals

/-!
# Better inputs

Without rounding a coherence scan and a back-casting never get worse when one of their inputs gets
better. What is decided by cut-offs goes up with the number that is held against them, in whatever
order the cut-offs stand. A truthfulness that is no longer vetoed leads from the lowest score and
the lowest recommendation to others.
-/
namespace DecisionGate

/-- Two when the upper condition holds, one when only the lower one does. -/
def tier (upper lower : Prop) [Decidable upper] [Decidable lower] : ℕ :=
  if upper then 2 else if lower then 1 else 0

theorem tier_le_tier {upper lower upper' lower' : Prop} [Decidable upper] [Decidable lower]
    [Decidable upper'] [Decidable lower'] (hupper : upper → upper') (hlower : lower → lower') :
    tier upper lower ≤ tier upper' lower' := by
  unfold tier
  by_cases hu : upper
  · rw [if_pos hu, if_pos (hupper hu)]
  · rw [if_neg hu]
    by_cases hl : lower
    · rw [if_pos hl, if_pos (hlower hl)]
      split <;> omega
    · rw [if_neg hl]
      exact Nat.zero_le _

def Priority.grade : Priority → ℕ
  | .low => 0
  | .medium => 1
  | .high => 2

def Confidence.grade : Confidence → ℕ
  | .low => 0
  | .medium => 1
  | .high => 2

def BackCasting.Recommendation.grade : BackCasting.Recommendation → ℕ
  | .defer => 0
  | .review => 1
  | .proceed => 2

def Coherence.Recommendation.grade : Coherence.Recommendation → ℕ
  | .reject => 0
  | .review => 1
  | .approve => 2

namespace BackCasting

theorem priorityOf_rat (threshold score : ℚ) : ∃ p, priorityOf threshold score = .ok p ∧
    p.grade = tier (threshold ≤ score) (threshold * 0.625 ≤ score) := by
  simp only [priorityOf, compare_rat, mul_rat, literal_rat, ok_bind, decide_eq_true_eq, tier]
  split
  · exact ⟨.high, rfl, rfl⟩
  · split
    · exact ⟨.medium, rfl, rfl⟩
    · exact ⟨.low, rfl, rfl⟩

theorem confidenceOf_rat (threshold clarity : ℚ) : ∃ c, confidenceOf threshold clarity = .ok c ∧
    c.grade = tier (threshold ≤ clarity) (0.5 ≤ clarity) ∧ (c = .high ↔ threshold ≤ clarity) := by
  simp only [confidenceOf, compare_rat, literal_rat, ok_bind, decide_eq_true_eq, tier]
  split
  · next hhigh => exact ⟨.high, rfl, rfl, by simp [hhigh]⟩
  · next hhigh =>
    split
    · exact ⟨.medium, rfl, rfl, by simp [hhigh]⟩
    · exact ⟨.low, rfl, rfl, by simp [hhigh]⟩

theorem recommendationOf_rat (threshold score : ℚ) (c : Confidence) :
    ∃ r, recommendationOf threshold score c = .ok r ∧
      r.grade = tier (threshold ≤ score ∧ c = .high) (0.4 ≤ score) := by
  simp only [recommendationOf, compare_rat, literal_rat, ok_bind, Bool.and_eq_true, beq_iff_eq,
    decide_eq_true_eq, tier]
  split
  · exact ⟨.proceed, rfl, rfl⟩
  · split
    · next hlow => exact ⟨.defer, rfl, by rw [if_neg (not_le.mpr hlow)]; rfl⟩
    · next hlow => exact ⟨.review, rfl, by rw [if_pos (not_lt.mp hlow)]; rfl⟩

/-- What back-casting comes to without rounding. -/
structure Assesses (s : Settings ℚ) (clarity alignment : ℚ) (o : Outcome ℚ) : Prop where
  score : o.score = clarity * s.endStateWeight + alignment * s.marketWeight
  priority : o.priority.grade = tier (s.priority ≤ o.score) (s.priority * 0.625 ≤ o.score)
  confidence : o.confidence.grade = tier (s.confidence ≤ clarity) (0.5 ≤ clarity)
  high : o.confidence = .high ↔ s.confidence ≤ clarity
  recommendation : o.recommendation.grade =
    tier (s.priority ≤ o.score ∧ o.confidence = .high) (0.4 ≤ o.score)

theorem assess_rat (s : Settings ℚ) (clarity alignment : ℚ) :
    ∃ o, assess s clarity alignment = .ok o ∧ Assesses s clarity alignment o := by
  generalize hscore : clarity * s.endStateWeight + alignment * s.marketWeight = score
  obtain ⟨priority, hpriority, hpgrade⟩ := priorityOf_rat s.priority score
  obtain ⟨confidence, hconfidence, hcgrade, hhigh⟩ := confidenceOf_rat s.confidence clarity
  obtain ⟨recommendation, hrecommendation, hrgrade⟩ :=
    recommendationOf_rat s.priority score confidence
  have hassess : assess s clarity alignment = .ok
      { score, endStateContribution := clarity * s.endStateWeight,
        marketContribution := alignment * s.marketWeight, priority, confidence, recommendation,
        fast := Decidable.decide (s.confidence ≤ score) } := by
    simp only [assess, mul_rat, add_rat, compare_rat, ok_bind, hscore, hpriority, hconfidence,
      hrecommendation]
  exact ⟨_, hassess, hscore.symm, hpgrade, hcgrade, hhigh, hrgrade⟩

/-- An outcome is in no respect better than another. -/
structure Outcome.AtMost (o o' : Outcome ℚ) : Prop where
  score : o.score ≤ o'.score
  priority : o.priority.grade ≤ o'.priority.grade
  confidence : o.confidence.grade ≤ o'.confidence.grade
  recommendation : o.recommendation.grade ≤ o'.recommendation.grade

/-- No weight is negative. -/
structure Settings.Nonneg (s : Settings ℚ) : Prop where
  endState : 0 ≤ s.endStateWeight
  market : 0 ≤ s.marketWeight

theorem Assesses.atMost {s : Settings ℚ} {c c' a a' : ℚ} {o o' : Outcome ℚ}
    (h : Assesses s c a o) (h' : Assesses s c' a' o') (hs : s.Nonneg) (hc : c ≤ c')
    (ha : a ≤ a') : o.AtMost o' := by
  have hscore : o.score ≤ o'.score := by
    rw [h.score, h'.score]
    exact add_le_add (mul_le_mul_of_nonneg_right hc hs.endState)
      (mul_le_mul_of_nonneg_right ha hs.market)
  refine ⟨hscore, ?_, ?_, ?_⟩
  · rw [h.priority, h'.priority]
    exact tier_le_tier (le_trans · hscore) (le_trans · hscore)
  · rw [h.confidence, h'.confidence]
    exact tier_le_tier (le_trans · hc) (le_trans · hc)
  · rw [h.recommendation, h'.recommendation]
    refine tier_le_tier (fun hboth => ⟨hboth.1.trans hscore, ?_⟩) (le_trans · hscore)
    exact h'.high.mpr ((h.high.mp hboth.2).trans hc)

end BackCasting

namespace Coherence

theorem recommendationOf_rat (s : Settings ℚ) (score : ℚ) :
    ∃ r, recommendationOf s score = .ok r ∧
      r.grade = tier (s.approve ≤ score) (s.review ≤ score) := by
  simp only [recommendationOf, compare_rat, ok_bind, decide_eq_true_eq, tier]
  split
  · exact ⟨.approve, rfl, rfl⟩
  · split
    · exact ⟨.review, rfl, rfl⟩
    · exact ⟨.reject, rfl, rfl⟩

/-- What a scan comes to without rounding. -/
inductive Assesses (s : Settings ℚ) (truthfulness system skill : ℚ) : Outcome ℚ → Prop
  | vetoed : truthfulness < s.veto → Assesses s truthfulness system skill .vetoed
  | scanned {c : Scan ℚ} : s.veto ≤ truthfulness →
      c.score = mean [(truthfulness, s.truthfulnessWeight), (system, s.systemWeight),
        (skill, s.skillWeight)] →
      c.recommendation.grade = tier (s.approve ≤ c.score) (s.review ≤ c.score) →
      Assesses s truthfulness system skill (.scanned c)

theorem assess_rat (s : Settings ℚ) (truthfulness system skill : ℚ) :
    ∃ o, assess s truthfulness system skill = .ok o ∧
      Assesses s truthfulness system skill o := by
  obtain ⟨o, ho, -⟩ : Gives (assess s truthfulness system skill) fun _ => True :=
    tame_rat.coherence_assess ⟨trivial, trivial, trivial⟩ (total_rat _ ▸ gives_ok trivial)
      ⟨trivial, trivial, trivial⟩ trivial trivial trivial
  refine ⟨o, ho, ?_⟩
  rcases assess_split ho with ⟨hveto, rfl⟩ | ⟨hveto, c, rfl, hscore, hrecommendation⟩
  · exact .vetoed (by simpa using hveto)
  · obtain ⟨r, hr, hgrade⟩ := recommendationOf_rat s c.score
    obtain rfl := Except.ok.inj (hr.symm.trans hrecommendation)
    refine .scanned (by simpa using hveto) ?_ hgrade
    exact (Except.ok.inj ((weightedMean_rat _).symm.trans hscore)).symm

/-- An outcome is in no respect better than another. -/
structure Outcome.AtMost (o o' : Outcome ℚ) : Prop where
  score : o.score ≤ o'.score
  recommendation : o.recommendation.grade ≤ o'.recommendation.grade

/-- No weight is negative. -/
structure Settings.Nonneg (s : Settings ℚ) : Prop where
  truthfulness : 0 ≤ s.truthfulnessWeight
  system : 0 ≤ s.systemWeight
  skill : 0 ≤ s.skillWeight

theorem Assesses.atMost {s : Settings ℚ} {t t' a a' k k' : ℚ} {o o' : Outcome ℚ}
    (h : Assesses s t a k o) (h' : Assesses s t' a' k' o') (hs : s.Nonneg) (ht : t ≤ t')
    (ha : a ≤ a') (hk : k ≤ k') (hnonneg : 0 ≤ t' ∧ 0 ≤ a' ∧ 0 ≤ k') : o.AtMost o' := by
  cases h with
  | vetoed hveto =>
    -- The lowest score and the lowest recommendation, whatever the other outcome is.
    refine ⟨?_, Nat.zero_le _⟩
    cases h' with
    | vetoed => rfl
    | scanned _ hscore =>
      show (0.0 : ℚ) ≤ _
      rw [Outcome.score, hscore]
      norm_num
      exact le_mean (by simp [hnonneg, hs.truthfulness, hs.system, hs.skill]) (.inl le_rfl)
  | @scanned c hveto hscore hgrade =>
    cases h' with
    | vetoed hveto' => exact absurd (hveto.trans ht) (not_le.mpr hveto')
    | @scanned c' _ hscore' hgrade' =>
      have hle : c.score ≤ c'.score := by
        rw [hscore, hscore']
        apply Raised.mean_le
        simp [Raised, ht, ha, hk, hs.truthfulness, hs.system, hs.skill]
      refine ⟨hle, ?_⟩
      show c.recommendation.grade ≤ c'.recommendation.grade
      rw [hgrade, hgrade']
      exact tier_le_tier (le_trans · hle) (le_trans · hle)

end Coherence

/-- Under every section of finite numbers, with no negative weight, an input that is raised makes
neither a coherence scan nor a back-casting worse in any respect. -/
theorem better_inputs_never_worsen (config : Entries) :
    (∀ s : Coherence.Settings ℚ, (Coherence.settings config).map Value.rational? = s.map some →
      s.Nonneg → ∀ t t' a a' k k' : ℚ, (∀ x ∈ [t, t', a, a', k, k'], Exact.IsUnit x) →
      t ≤ t' → a ≤ a' → k ≤ k' →
      ∃ o o', Coherence.assess s t a k = .ok o ∧ Coherence.assess s t' a' k' = .ok o' ∧
        o.AtMost o') ∧
    (∀ s : BackCasting.Settings ℚ, (BackCasting.settings config).map Value.rational? = s.map some →
      s.Nonneg → ∀ c c' a a' : ℚ, (∀ x ∈ [c, c', a, a'], Exact.IsUnit x) →
      c ≤ c' → a ≤ a' →
      ∃ o o', BackCasting.assess s c a = .ok o ∧ BackCasting.assess s c' a' = .ok o' ∧
        o.AtMost o') := by
  constructor
  · intro s _ hnonneg t t' a a' k k' hunit ht ha hk
    obtain ⟨o, ho, hassesses⟩ := Coherence.assess_rat s t a k
    obtain ⟨o', ho', hassesses'⟩ := Coherence.assess_rat s t' a' k'
    have hlow : 0 ≤ t' ∧ 0 ≤ a' ∧ 0 ≤ k' :=
      ⟨(hunit t' (by simp)).1, (hunit a' (by simp)).1, (hunit k' (by simp)).1⟩
    exact ⟨o, o', ho, ho', hassesses.atMost hassesses' hnonneg ht ha hk hlow⟩
  · intro s _ hnonneg c c' a a' _ hc ha
    obtain ⟨o, ho, hassesses⟩ := BackCasting.assess_rat s c a
    obtain ⟨o', ho', hassesses'⟩ := BackCasting.assess_rat s c' a'
    exact ⟨o, o', ho, ho', hassesses.atMost hassesses' hnonneg hc ha⟩

/-- A section that asks for all the truthfulness there is. -/
def demanding : Entries :=
  Entries.ofNames
    [("weights", Value.ofNames
      [("truthfulness", .int 2), ("system_adherence", .int 1), ("skill", .int 1),
       ("end_state_vision", .int 1), ("current_market_signals", .int 0)]),
     ("thresholds", Value.ofNames
      [("veto", .int 1), ("approve", .int 1), ("review", .int 0), ("confidence", .int 1),
       ("priority", .int 1)])]

/-- From a veto to an approval, and from the lowest grades to the highest. -/
theorem better_inputs_never_worsen_demanding :
    (∃ o o', Coherence.assess ⟨2, 1, 1, 1, 1, 0⟩ (1 / 2 : ℚ) 1 1 = .ok o ∧
      Coherence.assess ⟨2, 1, 1, 1, 1, 0⟩ (1 : ℚ) 1 1 = .ok o' ∧ o.AtMost o') ∧
    (∃ o o', BackCasting.assess ⟨1, 0, 1, 1⟩ (0 : ℚ) 1 = .ok o ∧
      BackCasting.assess ⟨1, 0, 1, 1⟩ (1 : ℚ) 1 = .ok o' ∧ o.AtMost o') := by
  obtain ⟨hcoherence, hbackCasting⟩ := better_inputs_never_worsen demanding
  constructor
  · refine hcoherence ⟨2, 1, 1, 1, 1, 0⟩ (by rfl) ⟨by norm_num, by norm_num, by norm_num⟩
      (1 / 2) 1 1 1 1 1 ?_ (by norm_num) le_rfl le_rfl
    simp [Exact.IsUnit]
    norm_num
  · refine hbackCasting ⟨1, 0, 1, 1⟩ (by rfl) ⟨by norm_num, by norm_num⟩ 0 1 1 1 ?_
      (by norm_num) le_rfl
    simp [Exact.IsUnit]

end DecisionGate
