import DecisionGate.Proofs.Adaptation
import DecisionGate.Proofs.Levels
import DecisionGate.Proofs.Reordering

/-!
# Floors for dimensions

A checkpoint that scores dimensions vetoes every one that is less than the limit, and it passes only
when every floor lies at the least score or below it. Both are about scores that are less than a
number. A score that is NaN is less than none, and a limit that is NaN has none less than it, so in
a verdict that passes the scores reach all their floors exactly when neither of that was given. The
scores of a content and the floors of texts are never NaN.
-/
namespace DecisionGate

namespace Belief

/-- A score that is brought between its bounds is no longer NaN. -/
theorem isNaN_clamp (x : Float) : Double.isNaN (clamp x) = false := by
  unfold clamp
  simp only
  generalize (if x < greatestScore then x else greatestScore) = capped
  split
  · next hlt =>
    rw [Exact.float_lt_iff] at hlt
    rw [Bool.eq_false_iff, Ne, Exact.isNaN_iff]
    intro hnan
    simp [Exact.compare_eq_none_iff.mpr (.inr hnan)] at hlt
  · decide +kernel

end Belief

namespace Gate

open Criteria (Criterion)

section
variable {α : Type} {name : String} {a : α} {p : String × α} {entries : List (String × α)}

theorem eq_or_mem_of_mem_putNamed (h : p ∈ putNamed name a entries) :
    p = (name, a) ∨ p ∈ entries := by
  induction entries with
  | nil => simpa [putNamed] using h
  | cons q rest ih =>
    obtain ⟨n, b⟩ := q
    simp only [putNamed] at h
    split at h
    · rcases List.mem_cons.mp h with h | h
      · exact .inl h
      · exact .inr (List.mem_cons_of_mem _ h)
    · rcases List.mem_cons.mp h with h | h
      · exact .inr (List.mem_cons.mpr (.inl h))
      · exact (ih h).imp_right (List.mem_cons_of_mem _)

theorem mem_putNamed_self : (name, a) ∈ putNamed name a entries := by
  induction entries with
  | nil => simp [putNamed]
  | cons q rest ih =>
    simp only [putNamed]
    split
    · exact List.mem_cons_self
    · exact List.mem_cons_of_mem _ ih

theorem mem_putNamed_of_ne (hne : p.1 ≠ name) (h : p ∈ entries) : p ∈ putNamed name a entries := by
  induction entries with
  | nil => cases h
  | cons q rest ih =>
    obtain ⟨n, b⟩ := q
    simp only [putNamed]
    split
    · next hn =>
      rcases List.mem_cons.mp h with rfl | h
      · exact absurd hn hne
      · exact List.mem_cons_of_mem _ h
    · rcases List.mem_cons.mp h with rfl | h
      · exact List.mem_cons_self
      · exact List.mem_cons_of_mem _ (ih h)

/-- A name that always comes with one value comes with that value in the end. -/
theorem mem_foldl_putNamed {named done : List (String × α)}
    (hsame : ∀ q ∈ named, q.1 = p.1 → q = p) (h : p ∈ named ∨ p ∈ done) :
    p ∈ named.foldl (fun acc d => putNamed d.1 d.2 acc) done := by
  induction named generalizing done with
  | nil => simpa using h
  | cons d rest ih =>
    obtain ⟨hd, hrest⟩ := List.forall_mem_cons.mp hsame
    apply ih hrest
    by_cases hname : d.1 = p.1
    · right
      rw [hd hname]
      exact mem_putNamed_self
    · rcases h with h | h
      · rcases List.mem_cons.mp h with rfl | h
        · exact absurd rfl hname
        · exact .inl h
      · exact .inr (mem_putNamed_of_ne (Ne.symm hname) h)

theorem mem_of_mem_foldl_putNamed {named done : List (String × α)}
    (h : p ∈ named.foldl (fun acc d => putNamed d.1 d.2 acc) done) : p ∈ named ∨ p ∈ done := by
  induction named generalizing done with
  | nil => exact .inr h
  | cons d rest ih =>
    rcases ih h with h | h
    · exact .inl (List.mem_cons_of_mem _ h)
    · exact (eq_or_mem_of_mem_putNamed h).imp (fun heq => List.mem_cons.mpr (.inl heq)) id

end

variable {c : Checkpoint} {given : Entries} {name : String}

theorem providedDimensions_eq_ok {ds : List (String × Float)} :
    providedDimensions c (.map given) = .ok ds ↔ ∃ scores,
      (asked c).mapM (namedScore given) = .ok scores ∧
        scores.foldl (fun acc d => putNamed d.1 d.2 acc) [] = ds := by
  have hbind : providedDimensions c (.map given) = ((asked c).mapM (namedScore given) >>=
      fun scores => .ok (scores.foldl (fun acc d => putNamed d.1 d.2 acc) [])) := rfl
  simp only [hbind, bind_eq_ok, Except.ok.injEq]

/-- The dimensions that are asked for, each with its score. -/
theorem mem_providedDimensions {ds : List (String × Float)}
    (h : providedDimensions c (.map given) = .ok ds) (p : String × Float) :
    p ∈ ds ↔ p.1 ∈ asked c ∧ dimensionScore given p.1 = .ok p.2 := by
  obtain ⟨scores, hscores, rfl⟩ := providedDimensions_eq_ok.mp h
  have hmem (q : String × Float) :
      q ∈ scores ↔ q.1 ∈ asked c ∧ dimensionScore given q.1 = .ok q.2 := by
    rw [mem_of_mapM_ok hscores]
    constructor
    · rintro ⟨name, hname, hq⟩
      obtain ⟨x, hx, rfl⟩ := map_eq_ok.mp hq
      exact ⟨hname, hx⟩
    · rintro ⟨hname, hx⟩
      exact ⟨q.1, hname, map_eq_ok.mpr ⟨q.2, hx, rfl⟩⟩
  rw [← hmem]
  constructor
  · intro hp
    simpa using mem_of_mem_foldl_putNamed hp
  · intro hp
    refine mem_foldl_putNamed ?_ (.inl hp)
    intro q hq hname
    have hx := ((hmem q).mp hq).2
    rw [hname, ((hmem p).mp hp).2] at hx
    exact Prod.ext hname (Except.ok.inj hx).symm

theorem asked_ne_nil (c : Checkpoint) : asked c ≠ [] := by
  unfold asked
  split
  · decide
  · next hne => simpa using hne

theorem exists_dimensionScore {ds : List (String × Float)}
    (h : providedDimensions c (.map given) = .ok ds) (hname : name ∈ asked c) :
    ∃ x, dimensionScore given name = .ok x := by
  obtain ⟨scores, hscores, -⟩ := providedDimensions_eq_ok.mp h
  obtain ⟨q, -, hq⟩ := exists_of_mapM_ok hscores hname
  obtain ⟨x, hx, -⟩ := map_eq_ok.mp hq
  exact ⟨x, hx⟩

theorem providedDimensions_ne_nil {ds : List (String × Float)}
    (h : providedDimensions c (.map given) = .ok ds) : ds ≠ [] := by
  obtain ⟨name, hname⟩ := List.exists_mem_of_ne_nil _ (asked_ne_nil c)
  obtain ⟨x, hx⟩ := exists_dimensionScore h hname
  exact List.ne_nil_of_mem ((mem_providedDimensions h (name, x)).mpr ⟨hname, hx⟩)

/-- A score is NaN when it was given as that. -/
theorem isNaN_dimensionScore {x : Float} (h : dimensionScore given name = .ok x) :
    Double.isNaN x = true ↔ ((given.get? name).getD .null).IsNaN := by
  cases hnumber : ((given.get? name).getD .null).isNumber with
  | true =>
    obtain ⟨n, hn, hscore⟩ := dimensionScore_number hnumber
    rw [hscore] at h
    exact Value.isNaN_toDouble hn (mapError_eq_ok.mp h)
  | false =>
    rw [dimensionScore_other hnumber] at h
    split at h
    · next hnull =>
      obtain rfl := Except.ok.inj h
      have hseven : Double.isNaN defaultDimensionScore = false := by decide +kernel
      cases hv : (given.get? name).getD .null <;>
        simp_all [Value.isNull, Value.IsNaN]
    · cases h

/-- A score was given as NaN for a dimension that is asked for. -/
def GivesNaN (c : Checkpoint) (es : Entries) : Prop :=
  ∃ given : Entries, givenScores es = .map given ∧
    ∃ name ∈ asked c, ((given.get? name).getD .null).IsNaN

/-- There always are scores, and one of them is NaN when it was given as that. -/
theorem isNaN_providedDimensions {es : Entries} {ds : List (String × Float)}
    (h : providedDimensions c (givenScores es) = .ok ds) :
    ds ≠ [] ∧ ((∃ p ∈ ds, Double.isNaN p.2 = true) ↔ GivesNaN c es) := by
  cases hentries : (givenScores es).entries? with
  | none =>
    -- Nothing was given, so every dimension has the default score.
    have hgiven : ¬ GivesNaN c es := by
      rintro ⟨given, hmap, -⟩
      simp [hmap, Value.entries?] at hentries
    rw [providedDimensions_other c hentries] at h
    split at h
    · cases h
    · refine ⟨providedDimensions_ne_nil h, iff_of_false ?_ hgiven⟩
      rintro ⟨p, hp, hnan⟩
      obtain ⟨-, hscore⟩ := (mem_providedDimensions h p).mp hp
      simpa [Value.IsNaN, Entries.get?, Entries.find?] using (isNaN_dimensionScore hscore).mp hnan
  | some given =>
    have hmap : givenScores es = .map given := by
      cases hv : givenScores es <;> simp_all [Value.entries?]
    rw [hmap] at h
    refine ⟨providedDimensions_ne_nil h, ?_⟩
    constructor
    · rintro ⟨p, hp, hnan⟩
      obtain ⟨hasked, hscore⟩ := (mem_providedDimensions h p).mp hp
      exact ⟨given, hmap, p.1, hasked, (isNaN_dimensionScore hscore).mp hnan⟩
    · rintro ⟨given', hmap', name, hasked, hnan⟩
      obtain rfl := Value.map.inj (hmap.symm.trans hmap')
      obtain ⟨x, hx⟩ := exists_dimensionScore h hasked
      exact ⟨(name, x), (mem_providedDimensions h _).mpr ⟨hasked, hx⟩,
        (isNaN_dimensionScore hx).mpr hnan⟩

/-- The scores of a content are never NaN, so only those that are given are. -/
theorem isNaN_scored {g : Gate} {es : Entries} {vetoes : List Veto} {ds : List (String × Float)}
    (h : g.scored c es = .ok (vetoes, ds)) :
    ds ≠ [] ∧ ((∃ p ∈ ds, Double.isNaN p.2 = true) ↔ GivesNaN c es) := by
  unfold scored at h
  split at h
  · next content hnull hcontent =>
    obtain ⟨r, hr, heq⟩ := map_eq_ok.mp h
    obtain ⟨-, rfl⟩ := Prod.mk.inj heq
    rw [(Belief.levels_of_requested Belief.requested_null hr).1]
    refine ⟨by simp [Belief.scoreLevels, Belief.Level.all], iff_of_false ?_ ?_⟩
    · rintro ⟨p, hp, hnan⟩
      obtain ⟨q, hq, rfl⟩ := List.mem_map.mp hp
      obtain ⟨l, -, rfl⟩ := List.mem_map.mp hq
      simp [Belief.scoreLevel, Belief.isNaN_clamp] at hnan
    · rintro ⟨given, hmap, -⟩
      simp [hnull] at hmap
  · obtain ⟨ds', hds, heq⟩ := map_eq_ok.mp h
    obtain ⟨-, rfl⟩ := Prod.mk.inj heq
    exact isNaN_providedDimensions hds

/-- What is read from a numeral is a number. -/
theorem isNaN_of_nearest {q : ℚ} {x : Float} (h : Exact.Nearest q x) : Double.isNaN x = false := by
  obtain ⟨n, k, -, hx⟩ := h
  rw [Bool.eq_false_iff, Ne, Exact.isNaN_iff, hx, Exact.clamp]
  split <;> simp

theorem isNaN_of_parse {text : String} {k : Criterion} {t : Float}
    (h : Criteria.parse text = .ok k) (hkind : k.kind = .floor) (ht : k.threshold = some t) :
    Double.isNaN t = false := by
  obtain ⟨f, ⟨ps, hsays, -⟩, hmatches⟩ := matches_of_parse h
  rw [hmatches.kind] at hkind
  cases hsays with
  | floor _ _ _ _ hdenotes =>
    obtain ⟨q, hq⟩ := hdenotes
    obtain ⟨x, hx, hnearest⟩ := hmatches.threshold
    obtain rfl := Option.some.inj (ht.symm.trans hx)
    exact isNaN_of_nearest (hnearest q hq)
  | comparison => cases hkind
  | presence => cases hkind

theorem mem_of_parseAll {items : List Criteria.Item} {ks : List Criterion} {item : Criteria.Item}
    {k : Criterion} (h : Criteria.parseAll items = .ok ks) (hitem : item ∈ items)
    (hparse : item.parse = .ok k) : k ∈ ks := by
  have hmem : item.parse ∈ items.map Criteria.Item.parse := List.mem_map_of_mem hitem
  rw [parseAll_eq_ok.mp h, hparse] at hmem
  obtain ⟨k', hk', heq⟩ := List.mem_map.mp hmem
  exact Except.ok.inj heq ▸ hk'

section
variable {g : Gate} {d : Definition} {context : Value} {ks : List Criterion} {es : Entries}
  {ds : List (String × Float)} {v : Verdict}

/-- A verdict that passes shows the dimensions of its outcome. -/
theorem exists_ran_of_passed (hread : d.read = .ok ⟨name, some c⟩)
    (hv : (g.execute d context).value.1 = .ok v) (hpassed : v.passed = true) :
    ∃ ks es o, Ran g d context c ks es o ∧ o.vetoes = [] ∧ (∀ k ∈ ks, Met o es k) ∧
      v.dimensions = o.dimensions := by
  obtain ⟨kind, hends⟩ := ends_of_execute hv
  cases hends with
  | skipped name' hread' => simp [hread] at hread'
  | vetoed => cases hpassed
  | passed c' ks es o results hran hvetoes heach hall =>
    obtain ⟨name', hread'⟩ := hran.read
    obtain rfl := checkpoint_unique hread hread'
    exact ⟨ks, es, o, hran, hvetoes, (met_iff_of_evaluated heach).mp hall, rfl⟩
  | failed => cases hpassed
  | error => cases hpassed

/-- Every dimension reaches the limit, and every floor of a text. -/
def ReachesFloors (c : Checkpoint) (ks : List Criterion) (ds : List (String × Float)) : Prop :=
  ∀ p ∈ ds, leastDimension c ks ≤ p.2 ∧ ∀ text k t, textItem text ∈ c.criteria →
    Criteria.parse text = .ok k → k.kind = .floor → k.threshold = some t → t ≤ p.2

/-- Scores that are less than no floor reach them all unless one of them, or the limit, is NaN. -/
theorem reachesFloors_iff (hne : ds ≠ []) (hlimit : ∀ p ∈ ds, ¬ p.2 < leastDimension c ks)
    (hfloors : ∀ text k t, textItem text ∈ c.criteria → Criteria.parse text = .ok k →
      k.kind = .floor → k.threshold = some t → ∀ p ∈ ds, ¬ p.2 < t) :
    ReachesFloors c ks ds ↔
      Double.isNaN (leastDimension c ks) = false ∧ ¬ ∃ p ∈ ds, Double.isNaN p.2 = true := by
  simp only [ReachesFloors, Exact.float_le_iff_not_lt]
  constructor
  · intro h
    obtain ⟨p, hp⟩ := List.exists_mem_of_ne_nil _ hne
    refine ⟨(h p hp).1.2.2, ?_⟩
    rintro ⟨q, hq, hnan⟩
    exact absurd hnan (by simp [(h q hq).1.2])
  · rintro ⟨hleast, hnumbers⟩ p hp
    have hnumber : Double.isNaN p.2 = false := by
      rw [Bool.eq_false_iff]
      exact fun hnan => hnumbers ⟨p, hp, hnan⟩
    refine ⟨⟨hlimit p hp, hnumber, hleast⟩, ?_⟩
    intro text k t htext hparse hkind ht
    exact ⟨hfloors text k t htext hparse hkind ht p hp, hnumber, isNaN_of_parse hparse hkind ht⟩

/-- A verdict on dimensions that passes shows them, and they reach the limit and all floors exactly
when the limit is a number and no score was given as NaN. -/
theorem passed_reachesFloors_iff (hread : d.read = .ok ⟨name, some c⟩)
    (hscores : c.ScoresDimensions) (hv : (g.execute d context).value.1 = .ok v)
    (hpassed : v.passed = true) :
    ∃ ks es ds, prepare c (contextOf context) = .ok (ks, es) ∧ v.dimensions = some ds ∧
      (ReachesFloors c ks ds ↔
        Double.isNaN (leastDimension c ks) = false ∧ ¬ GivesNaN c es) := by
  obtain ⟨ks, es, o, ⟨-, hprepared, houtcome⟩, hvetoes, hmet, hdimensions⟩ :=
    exists_ran_of_passed hread hv hpassed
  rw [runTarget_dimensions hscores] at houtcome
  obtain ⟨⟨vetoes, ds⟩, hscored, rfl⟩ := map_eq_ok.mp houtcome
  obtain ⟨hne, hnan⟩ := isNaN_scored hscored
  have hlimit := (dimensionOutcome_vetoes_eq_nil.mp hvetoes).2
  refine ⟨ks, es, ds, hprepared, hdimensions, ?_⟩
  rw [← hnan]
  refine reachesFloors_iff hne (fun p hp => hlimit p.2 (List.mem_map_of_mem hp)) ?_
  intro text k t htext hparse hkind ht p hp
  have hk : k ∈ ks := mem_of_parseAll (prepare_eq_ok.mp hprepared).2.2 htext hparse
  obtain ⟨hoperator, -⟩ := floor_of_parse hparse hkind
  exact not_lt_of_met (hmet k hk) hkind hoperator ht p.2 (List.mem_map_of_mem hp)

end

/-- The verdict of a gate on scores that are given. -/
def rate (c : Checkpoint) (scores : List (String × Value)) : Except Failure Verdict :=
  (({} : Gate).execute (.checkpoint c)
    (Value.ofNames [("axiom_scores", Value.ofNames scores)])).value.1

/-- A checkpoint with a limit of its own, and a floor above it. -/
def flooredCheckpoint : Checkpoint :=
  { beliefCheckpoint with
    leastDimension := some 4.0, criteria := [textItem "no dimension below 5"] }

set_option maxRecDepth 100000 in
/-- Five for the one and seven for the others reach both the limit and the floor. -/
theorem passed_reachesFloors_five :
    ∃ v ks ds, rate flooredCheckpoint [("Coherence", .int 5)] = .ok v ∧ v.passed = true ∧
      v.dimensions = some ds ∧ ReachesFloors flooredCheckpoint ks ds := by
  obtain ⟨v, hv, hpassed⟩ := any_toOption_iff.mp
    (show (rate flooredCheckpoint [("Coherence", .int 5)]).toOption.any Verdict.passed = true by
      decide +kernel)
  obtain ⟨ks, es, ds, hprepared, hdimensions, hiff⟩ :=
    passed_reachesFloors_iff (c := flooredCheckpoint) rfl ⟨_, rfl, rfl⟩ hv hpassed
  refine ⟨v, ks, ds, hv, hpassed, hdimensions, hiff.mpr ⟨?_, ?_⟩⟩
  · have hlimit : leastDimension flooredCheckpoint ks = 4.0 := rfl
    rw [hlimit]
    decide +kernel
  · rintro ⟨given, hmap, name, -, x, hx, -⟩
    obtain rfl := Value.map.inj (prepare_eq_ok.mp hprepared).1
    obtain rfl := Value.map.inj hmap
    revert hx
    simp only [Entries.get?, Entries.ofNames, List.map_cons, List.map_nil, Entries.find?]
    split <;> simp

set_option maxRecDepth 100000 in
/-- NaN passes the usual limit, which it does not reach. -/
theorem nan_passes :
    ∃ v ds, rate beliefCheckpoint [("Coherence", .float Double.nan)] = .ok v ∧ v.passed = true ∧
      v.dimensions = some ds ∧ ∃ p ∈ ds, ¬ leastDimension beliefCheckpoint [] ≤ p.2 := by
  have hpasses : (rate beliefCheckpoint [("Coherence", .float Double.nan)]).toOption.any (fun v =>
      v.passed && v.dimensions.any fun ds => ds.any fun p => Double.isNaN p.2) = true := by
    decide +kernel
  obtain ⟨v, hv, hboth⟩ := any_toOption_iff.mp hpasses
  obtain ⟨hpassed, hdimensions⟩ := Bool.and_eq_true_iff.mp hboth
  obtain ⟨ds, hds, hsome⟩ := (Option.any_eq_true _ _).mp hdimensions
  obtain ⟨p, hp, hnan⟩ := List.any_eq_true.mp hsome
  refine ⟨v, ds, hv, hpassed, hds, p, hp, ?_⟩
  rw [Exact.float_le_iff_not_lt]
  simp [hnan]

end Gate
end DecisionGate
