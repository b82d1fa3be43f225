import DecisionGate.Proofs.Checkable

/-!
# The rules of a document and the problems that are found

Every rule that a document is under is listed here, in the order of its parts, with what it means to
keep it. A rule about the inside of something that is not there is kept: what is missing is the
business of the rule about the thing itself. The check finds one problem for each rule that is
broken and none for any other, in the order of the rules, as far as it comes to an end and the
numbers of the document are finite and not too large for doubles.
-/
namespace DecisionGate

/-- A value whose numbers are finite, and none of them too large for a double. -/
inductive Value.Fits : Value → Prop
  | null : Fits .null
  | bool (b : Bool) : Fits (.bool b)
  | int (i : Int) : Double.ofInt? i ≠ none → Fits (.int i)
  | float (x : Float) : Double.isFinite x = true → Fits (.float x)
  | str (s : String) : Fits (.str s)
  | list (xs : List Value) : (∀ v ∈ xs, Fits v) → Fits (.list xs)
  | map (es : Entries) : (∀ e ∈ es, Fits e.1.toValue) → (∀ e ∈ es, Fits e.2) → Fits (.map es)
  | endless (apart : Bool) : Fits (.endless apart)

namespace Config

open Gate (TooLarge)

inductive Constraint where
  | document
  | version
  | heuristics
  | settings (b : Builtin)
  | group (b : Builtin) (g : Group)
  | entry (b : Builtin) (g : Group) (key : Key) (value : Value)
  | weightSum
  | review
  | standardization
  | validation
  | strictMode
  | minimum
  | enableVeto

/-- A mapping that is not empty. -/
def IsFilled (v : Value) : Prop := ∃ es, v = .map es ∧ es ≠ []

/-- A truth value, if anything. -/
def IsFlag (v : Value) : Prop := v = .null ∨ ∃ b, v = .bool b

def IsParameter (g : Group) (key : Key) (v : Value) : Prop :=
  match g with
  | .weights => IsWeight v
  | .thresholds => IsThreshold key v

/-- The sum of two numbers as a double. Two integers are summed first, and everything else as
doubles. -/
def doubleSum? : Number → Number → Option Float
  | .int i, .int j => Double.ofInt? (i + j)
  | .int i, .float y => (Double.ofInt? i).map (· + y)
  | .float x, .int j => (Double.ofInt? j).map (x + ·)
  | .float x, .float y => some (x + y)

/-- What two thresholds of a heuristic are to each other when both are numbers. -/
def Ordered (config : Value) (b : Builtin) (first second : String) (r : ℚ → ℚ → Prop) : Prop :=
  ∀ p q, quantity? ((parameters config b .thresholds).field first) = some (.rational p) →
    quantity? ((parameters config b .thresholds).field second) = some (.rational q) → r p q

/-- What it is for a document to keep a rule. -/
def Constraint.Kept (config : Value) : Constraint → Prop
  | .document => IsFilled config
  | .version => ∃ s, config.field "version" = .str s ∧ s ≠ ""
  | .heuristics => IsFilled (config.field "heuristics")
  | .settings b => IsFilled ((config.field "heuristics").field b.id)
  | .group b g =>
    IsFilled ((config.field "heuristics").field b.id) → IsFilled (parameters config b g)
  | .entry _ g key v => IsParameter g key v
  | .weightSum => ∀ es m n x, parameters config .backCasting .weights = .map es →
      number? (weightIn es "end_state_vision") = some m →
      number? (weightIn es "current_market_signals") = some n → doubleSum? m n = some x →
      ¬ (x - 1.0).abs > tolerance
  | .review => Ordered config .coherenceScan "review" "approve" (· < ·)
  | .standardization => Ordered config .automationCheck "standardization" "automate" (· ≤ ·)
  | .validation => config.field "validation" = .null ∨ ∃ es, config.field "validation" = .map es
  | .strictMode => IsFlag ((config.field "validation").field "strict_mode")
  | .minimum => (config.field "validation").field "minimum_score" = .null ∨
      ∃ q, quantity? ((config.field "validation").field "minimum_score") = some (.rational q) ∧
        0 ≤ q ∧ q ≤ 10
  | .enableVeto => IsFlag ((config.field "validation").field "enable_veto")

def entryConstraints (b : Builtin) (g : Group) (es : Entries) : List Constraint :=
  es.map fun e => .entry b g e.1 e.2

/-- A group is under a rule, and so is each entry of it. -/
def groupConstraints (config : Value) (b : Builtin) (g : Group) : List Constraint :=
  .group b g :: entryConstraints b g (((parameters config b g).entries?).getD [])

def sectionConstraints (config : Value) (b : Builtin) : List Constraint :=
  .settings b :: (groupConstraints config b .weights ++ groupConstraints config b .thresholds)

/-- The rules that a document is under, in the order of its parts. -/
def constraints (config : Value) : List Constraint :=
  ([.document, .version, .heuristics] : List Constraint) ++
    Builtin.all.flatMap (sectionConstraints config) ++
    ([.weightSum, .review, .standardization] : List Constraint) ++
    ([.validation, .strictMode, .minimum, .enableVeto] : List Constraint)

/-- The rule that a problem is about. -/
def Problem.subject : Problem → Constraint
  | .notDocument => .document
  | .versionMissing => .version
  | .versionNotText => .version
  | .heuristicsMissing => .heuristics
  | .heuristicsNotMapping => .heuristics
  | .heuristicMissing b => .settings b
  | .sectionNotMapping b => .settings b
  | .groupMissing b g => .group b g
  | .groupNotMapping b g => .group b g
  | .notNumber b g key v => .entry b g key v
  | .negativeWeight b key v => .entry b .weights key v
  | .badTippingPoint b key v => .entry b .thresholds key v
  | .thresholdOutOfRange b key v => .entry b .thresholds key v
  | .weightSum _ => .weightSum
  | .reviewNotBelowApprove _ _ => .review
  | .standardizationAboveAutomate _ _ => .standardization
  | .validationNotMapping => .validation
  | .strictModeNotFlag => .strictMode
  | .minimumNotNumber => .minimum
  | .minimumOutOfRange => .minimum
  | .enableVetoNotFlag => .enableVeto

open Classical in
/-- The rules of a list that a document breaks. -/
noncomputable def broken (config : Value) (cs : List Constraint) : List Constraint :=
  cs.filter fun c => ¬ c.Kept config

/-- One problem for each rule of a list that is broken, in order. -/
def Reports (config : Value) (found : List Problem) (cs : List Constraint) : Prop :=
  found.map Problem.subject = broken config cs

section
variable {config : Value} {found : List Problem} {c : Constraint} {cs : List Constraint}

theorem reports_kept (h : c.Kept config) : Reports config [] [c] := by
  simp [Reports, broken, h]

theorem reports_broken {p : Problem} (h : ¬ c.Kept config) (hp : p.subject = c) :
    Reports config [p] [c] := by
  simp [Reports, broken, h, hp]

theorem Reports.append {found' : List Problem} {cs' : List Constraint} (h : Reports config found cs)
    (h' : Reports config found' cs') : Reports config (found ++ found') (cs ++ cs') := by
  simp only [Reports, broken, List.map_append, List.filter_append] at h h' ⊢
  rw [h, h']

theorem Reports.cons_kept (hc : c.Kept config) (h : Reports config found cs) :
    Reports config found (c :: cs) :=
  (reports_kept hc).append h

theorem Reports.eq_nil_iff (h : Reports config found cs) :
    found = [] ↔ ∀ c ∈ cs, c.Kept config := by
  rw [← List.map_eq_nil_iff (f := Problem.subject), h]
  simp [broken]

end

section
variable {v : Value} {n : Number}

theorem fits_map {es : Entries} :
    (Value.map es).Fits ↔ ∀ e ∈ es, e.1.toValue.Fits ∧ e.2.Fits := by
  constructor
  · intro h
    cases h with
    | map es hkeys hvalues => exact fun e he => ⟨hkeys e he, hvalues e he⟩
  · intro h
    exact .map es (fun e he => (h e he).1) fun e he => (h e he).2

theorem fits_get? {es : Entries} {name : String} (h : (Value.map es).Fits)
    (hv : es.get? name = some v) : v.Fits :=
  (fits_map.mp h _ (mem_of_get? hv)).2

theorem fits_field (h : v.Fits) (name : String) : (v.field name).Fits := by
  cases v with
  | map es =>
    change ((Entries.get? es name).getD .null).Fits
    cases hv : Entries.get? es name with
    | none => exact .null
    | some w => exact fits_get? h hv
  | _ => exact .null

theorem fits_parameters {config : Value} (h : config.Fits) (b : Builtin) (g : Group) :
    (parameters config b g).Fits :=
  fits_field (fits_field (fits_field h _) _) _

theorem rational_of_fits (h : v.Fits) (hn : number? v = some n) :
    ∃ q, Exact.ofNumber n = .rational q := by
  refine ofNumber_of_isFinite hn fun x hx => ?_
  rw [hx] at h
  cases h with
  | float x hfinite => exact hfinite

theorem not_tooLarge_of_fits (h : v.Fits) : ¬ TooLarge v := by
  rintro ⟨i, rfl, hi⟩
  cases h with
  | int i hfits => exact hfits hi

theorem toDouble_of_fits (h : v.Fits) (hn : number? v = some n) : ∃ x, n.toDouble = .ok x := by
  rw [exists_ok_iff, fails_toDouble_iff hn]
  exact not_tooLarge_of_fits h

theorem hasText_of_fits (h : v.Fits) (hn : number? v = some n) : v.hasText = true := by
  obtain ⟨x, hx⟩ := toDouble_of_fits h hn
  exact hasText_of_toDouble hn hx

theorem key_hasText_of_fits {key : Key} (h : key.toValue.Fits) : key.hasText = true := by
  cases key with
  | int i =>
    cases h with
    | int i hfits =>
      obtain ⟨x, hx⟩ := Option.ne_none_iff_exists'.mp hfits
      exact Exact.hasText_of_ofInt? hx
  | _ => rfl

theorem not_entryFails_of_fits {g : Group} {key : Key} (hkey : key.toValue.Fits) (hv : v.Fits) :
    ¬ EntryFails g key v := by
  have htext := key_hasText_of_fits hkey
  intro h
  cases h with
  | unnamed _ hlong => cases htext.symm.trans hlong
  | unshown n hn _ hlong =>
    rcases hlong with hlong | hlong
    · cases htext.symm.trans hlong
    · cases (hasText_of_fits hv hn).symm.trans hlong
  | repetitions n _ _ _ _ hlarge => exact not_tooLarge_of_fits hv hlarge

theorem fits_weightIn {es : Entries} (h : (Value.map es).Fits) (name : String) :
    (weightIn es name).Fits := by
  unfold weightIn
  cases hv : es.get? name with
  | none => exact .int 0 (ofInt?_ne_none le_rfl (by decide))
  | some v => exact fits_get? h hv

end

/-- Two weights of back-casting that are integers and whose sum no double holds. -/
def WeightsOverflow (config : Value) : Prop :=
  ∃ es i j, parameters config .backCasting .weights = .map es ∧
    weightIn es "end_state_vision" = .int i ∧ weightIn es "current_market_signals" = .int j ∧
    Double.ofInt? (i + j) = none

theorem number?_eq_int {v : Value} {i : Int} : number? v = some (.int i) ↔ v = .int i := by
  cases v <;> simp [number?]

/-- Where every number fits, only a sum can be too large. -/
theorem uncheckable_iff_of_fits {config : Value} (hfits : config.Fits) :
    Uncheckable config ↔ WeightsOverflow config := by
  constructor
  · intro h
    cases h with
    | @entry b g es e hes he hfails =>
      have hmap : (Value.map es).Fits := hes ▸ fits_parameters hfits b g
      obtain ⟨hkey, hvalue⟩ := fits_map.mp hmap e he
      exact absurd hfails (not_entryFails_of_fits hkey hvalue)
    | @sum es m n hes hm hn hlarge =>
      have hmap : (Value.map es).Fits := hes ▸ fits_parameters hfits .backCasting .weights
      have hint : ∀ name i, number? (weightIn es name) = some (.int i) → Double.ofInt? i ≠ none :=
        fun name i hi hnone =>
          not_tooLarge_of_fits (fits_weightIn hmap name) ⟨i, number?_eq_int.mp hi, hnone⟩
      cases hlarge with
      | integers i j hsum =>
        exact ⟨es, i, j, hes, number?_eq_int.mp hm, number?_eq_int.mp hn, hsum⟩
      | first i y hi => exact absurd hi (hint _ i hm)
      | second x j hj => exact absurd hj (hint _ j hn)
  · rintro ⟨es, i, j, hes, hi, hj, hsum⟩
    exact .sum hes (number?_eq_int.mpr hi) (number?_eq_int.mpr hj) (.integers i j hsum)

theorem eq_of_noted {p : Problem} {found : Option Problem} (h : noted p = .ok found) :
    found = some p := by
  unfold noted at h
  split at h
  · exact (Except.ok.inj h).symm
  · cases h

theorem reports_version (config : Value) :
    Reports config (checkVersion (config.field "version")) [.version] := by
  have hkept : Constraint.version.Kept config ↔ ∃ s, config.field "version" = .str s ∧ s ≠ "" :=
    Iff.rfl
  generalize config.field "version" = v at hkept ⊢
  unfold checkVersion
  split
  · exact reports_broken (by rw [hkept]; simp) rfl
  · exact reports_broken (by rw [hkept]; simp) rfl
  · next s hne => exact reports_kept (hkept.mpr ⟨s, rfl, hne⟩)
  · next hnull hempty htext =>
    refine reports_broken ?_ rfl
    rw [hkept]
    rintro ⟨s, rfl, -⟩
    exact htext s rfl

theorem number?_eq_none_of_quantity? {v : Value} (h : number? v = none) (a : Exact) :
    quantity? v ≠ some a := by
  simp [quantity?, h]

section
variable {v : Value} {n : Number} {q : ℚ} (hn : number? v = some n)
  (hq : Exact.ofNumber n = .rational q)
include hn hq

theorem quantity?_rational_iff {p : ℚ} : quantity? v = some (.rational p) ↔ p = q := by
  rw [quantity?_eq hn hq]
  simp [eq_comm]

theorem isWeight_iff : IsWeight v ↔ n.compare .lt (.int 0) = false := by
  rw [Exact.not_lt_int hq]
  simp [IsWeight, quantity?_rational_iff hn hq]

theorem isRatio_iff :
    IsRatio v ↔ (n.compare .lt (.int 0) || n.compare .gt (.int 1)) = false := by
  rw [Bool.or_eq_false_iff, Exact.not_lt_int hq, Exact.not_gt_int hq]
  simp [IsRatio, quantity?_rational_iff hn hq]

/-- A number of repetitions becomes a double with an integral value. -/
theorem isRepetitions_iff {x : Float} (hx : n.toDouble = .ok x) :
    IsRepetitions v ↔ n.compare .lt (.int 1) = false ∧ Double.isIntegral x = true := by
  rw [Exact.not_lt_int hq]
  constructor
  · rintro ⟨k, hk, hone⟩
    obtain rfl := (quantity?_rational_iff hn hq).mp hk
    refine ⟨by exact_mod_cast hone, ?_⟩
    cases n with
    | int i =>
      cases hi : Double.ofInt? i with
      | none => simp [Number.toDouble, hi] at hx
      | some y =>
        obtain rfl : y = x := by simpa [Number.toDouble, hi] using hx
        exact Exact.isIntegral_of_ofInt? hi
    | float y =>
      obtain rfl := Except.ok.inj hx
      exact Exact.isIntegral_of_ofDouble hq
  · rintro ⟨hone, hintegral⟩
    obtain ⟨i, hi⟩ := isRepetitions_of_integral hx hintegral
    obtain rfl := Exact.rational.inj (hq.symm.trans hi)
    exact ⟨i, quantity?_eq hn hq, by exact_mod_cast hone⟩

end

theorem reports_weight {config v : Value} {b : Builtin} {key : Key} {found : Option Problem}
    (hv : v.Fits) (h : checkWeight b key v = .ok found) :
    Reports config found.toList [.entry b .weights key v] := by
  unfold checkWeight at h
  cases hn : number? v with
  | none =>
    rw [hn] at h
    obtain rfl := eq_of_noted h
    refine reports_broken ?_ rfl
    rintro ⟨q, hq, -⟩
    exact number?_eq_none_of_quantity? hn _ hq
  | some n =>
    obtain ⟨q, hq⟩ := rational_of_fits hv hn
    rw [hn] at h
    cases hlt : n.compare .lt (.int 0) with
    | true =>
      simp only [hlt, if_true] at h
      obtain rfl := eq_of_noted h
      refine reports_broken ?_ rfl
      simp [Constraint.Kept, IsParameter, isWeight_iff hn hq, hlt]
    | false =>
      simp only [hlt, Bool.false_eq_true, if_false] at h
      obtain rfl := Except.ok.inj h
      exact reports_kept ((isWeight_iff hn hq).mpr hlt)

theorem reports_threshold {config v : Value} {b : Builtin} {key : Key} {found : Option Problem}
    (hv : v.Fits) (h : checkThreshold b key v = .ok found) :
    Reports config found.toList [.entry b .thresholds key v] := by
  have hkept : (Constraint.entry b .thresholds key v).Kept config ↔ IsThreshold key v := Iff.rfl
  unfold IsThreshold at hkept
  unfold checkThreshold at h
  cases hn : number? v with
  | none =>
    rw [hn] at h
    obtain rfl := eq_of_noted h
    refine reports_broken ?_ rfl
    rw [hkept]
    split
    · rintro ⟨k, hk, -⟩
      exact number?_eq_none_of_quantity? hn _ hk
    · rintro ⟨q, hq, -⟩
      exact number?_eq_none_of_quantity? hn _ hq
  | some n =>
    obtain ⟨q, hq⟩ := rational_of_fits hv hn
    obtain ⟨x, hx⟩ := toDouble_of_fits hv hn
    rw [hn] at h
    cases hkey : key.sameAs (.str "tipping_point") with
    | true =>
      rw [hkey, if_pos rfl, isRepetitions_iff hn hq hx] at hkept
      simp only [hkey, if_true, hx, ok_bind] at h
      cases hlt : n.compare .lt (.int 1) with
      | true =>
        simp only [hlt, if_true] at h
        obtain rfl := eq_of_noted h
        exact reports_broken (by simp [hkept, hlt]) rfl
      | false =>
        simp only [hlt, Bool.false_eq_true, if_false] at h
        split at h
        · next hintegral =>
          obtain rfl := Except.ok.inj h
          exact reports_kept (hkept.mpr ⟨hlt, hintegral⟩)
        · next hbroken =>
          obtain rfl := eq_of_noted h
          exact reports_broken (by simp [hkept, hbroken]) rfl
    | false =>
      rw [hkey, if_neg Bool.false_ne_true, isRatio_iff hn hq] at hkept
      simp only [hkey, Bool.false_eq_true, if_false] at h
      split at h
      · next hout =>
        obtain rfl := eq_of_noted h
        exact reports_broken (by simp [hkept, hout]) rfl
      · next hin =>
        obtain rfl := Except.ok.inj h
        exact reports_kept (hkept.mpr (Bool.eq_false_iff.mpr hin))

/-- The check of one entry of a group. -/
def checkEntry : Group → Builtin → Key → Value → Except Fault (Option Problem)
  | .weights => checkWeight
  | .thresholds => checkThreshold

theorem reports_entry {config v : Value} {b : Builtin} {g : Group} {key : Key}
    {found : Option Problem} (hv : v.Fits) (h : checkEntry g b key v = .ok found) :
    Reports config found.toList [.entry b g key v] := by
  cases g with
  | weights => exact reports_weight hv h
  | thresholds => exact reports_threshold hv h

theorem filterMap_cons_id (p : Option Problem) (ps : List (Option Problem)) :
    (p :: ps).filterMap id = p.toList ++ ps.filterMap id := by
  cases p <;> rfl

/-- One problem at most for each entry. -/
theorem reports_entries {config : Value} {b : Builtin} {g : Group} {es : Entries}
    {found : List (Option Problem)} (hfits : ∀ e ∈ es, e.2.Fits)
    (h : es.mapM (fun e => checkEntry g b e.1 e.2) = .ok found) :
    Reports config (found.filterMap id) (entryConstraints b g es) := by
  have hall := forall₂_of_mapM_ok h
  clear h
  induction hall with
  | nil => rfl
  | cons hp _ ih =>
    obtain ⟨hfirst, hrest⟩ := List.forall_mem_cons.mp hfits
    rw [filterMap_cons_id]
    exact (reports_entry hfirst hp).append (ih hrest)

theorem checkGroup_of_isFilled {b : Builtin} {g : Group} {es : Entries} (hne : es ≠ []) :
    checkGroup b g (.map es) = .ok es := by
  simp only [checkGroup, isTruthy_map hne, Bool.not_true, Bool.false_eq_true, if_false]

theorem checkGroup_of_not_isFilled {b : Builtin} {g : Group} {v : Value} (h : ¬ IsFilled v) :
    ∃ p, checkGroup b g v = .error p ∧ p.subject = .group b g := by
  cases hgroup : checkGroup b g v with
  | ok es =>
    obtain ⟨rfl, hne⟩ := checkGroup_eq_ok hgroup
    exact absurd ⟨es, rfl, hne⟩ h
  | error p =>
    refine ⟨p, rfl, ?_⟩
    unfold checkGroup at hgroup
    split at hgroup
    · cases hgroup
      rfl
    · split at hgroup
      · cases hgroup
      · cases hgroup
        rfl

theorem checkEach_eq_ok {b : Builtin} {g : Group} {es : Entries} {found : List Problem}
    {check : Builtin → Key → Value → Except Fault (Option Problem)} (hne : es ≠ [])
    (h : checkEach b g check (.map es) = .ok found) :
    ∃ results, es.mapM (fun e => check b e.1 e.2) = .ok results ∧ results.filterMap id = found := by
  rw [checkEach, checkGroup_of_isFilled hne] at h
  obtain ⟨results, hresults, hfound⟩ := bind_eq_ok.mp h
  exact ⟨results, hresults, Except.ok.inj hfound⟩

/-- The entries of what is not filled. -/
theorem entries_of_not_isFilled {v : Value} (h : ¬ IsFilled v) : v.entries?.getD [] = [] := by
  cases v with
  | map es =>
    by_contra hne
    exact h ⟨es, rfl, hne⟩
  | _ => rfl

theorem field_of_not_isFilled {v : Value} (h : ¬ IsFilled v) (name : String) :
    v.field name = .null := by
  cases v with
  | map es =>
    obtain rfl : es = [] := by
      by_contra hne
      exact h ⟨es, rfl, hne⟩
    rfl
  | _ => rfl

section
variable {config : Value} {hs : Entries} {b : Builtin} {found : List Problem}

theorem reports_group {g : Group} (hfits : config.Fits)
    (hsettings : IsFilled ((config.field "heuristics").field b.id))
    (h : checkEach b g (checkEntry g) (parameters config b g) = .ok found) :
    Reports config found (groupConstraints config b g) := by
  by_cases hfilled : IsFilled (parameters config b g)
  · have hgroup : (Constraint.group b g).Kept config := fun _ => hfilled
    obtain ⟨es, hes, hne⟩ := hfilled
    have hmap : (Value.map es).Fits := hes ▸ fits_parameters hfits b g
    rw [hes] at h
    obtain ⟨results, hresults, rfl⟩ := checkEach_eq_ok hne h
    rw [groupConstraints, hes]
    exact (reports_entries (fun e he => (fits_map.mp hmap e he).2) hresults).cons_kept hgroup
  · obtain ⟨p, hp, hsubject⟩ := checkGroup_of_not_isFilled (b := b) (g := g) hfilled
    rw [checkEach, hp] at h
    obtain rfl := Except.ok.inj h
    rw [groupConstraints, entries_of_not_isFilled hfilled]
    exact reports_broken (fun hkept => hfilled (hkept hsettings)) hsubject

theorem checkSection_eq_ok (hfilled : IsFilled (valueOf hs b))
    (h : checkSection hs b = .ok found) :
    ∃ weights thresholds,
      checkEach b .weights (checkEntry .weights) ((valueOf hs b).field Group.weights.name) =
        .ok weights ∧
      checkEach b .thresholds (checkEntry .thresholds)
        ((valueOf hs b).field Group.thresholds.name) = .ok thresholds ∧
      weights ++ thresholds = found := by
  obtain ⟨es, hes, hne⟩ := hfilled
  rw [checkSection_of_map hes hne] at h
  obtain ⟨weights, hweights, hrest⟩ := bind_eq_ok.mp h
  obtain ⟨thresholds, hthresholds, hfound⟩ := bind_eq_ok.mp hrest
  rw [hes]
  exact ⟨weights, thresholds, hweights, hthresholds, Except.ok.inj hfound⟩

theorem checkSection_of_not_isFilled (h : ¬ IsFilled (valueOf hs b)) :
    ∃ p, checkSection hs b = .ok [p] ∧ p.subject = .settings b := by
  unfold IsFilled valueOf at h
  simp only [checkSection]
  generalize (hs.get? b.id).getD .null = v at h ⊢
  split
  · exact ⟨_, rfl, rfl⟩
  · next htruthy =>
    cases v with
    | map es =>
      refine absurd ⟨es, rfl, ?_⟩ h
      rintro rfl
      exact htruthy rfl
    | _ => exact ⟨_, rfl, rfl⟩

theorem reports_section (hfits : config.Fits) (hhs : config.field "heuristics" = .map hs)
    (h : checkSection hs b = .ok found) : Reports config found (sectionConstraints config b) := by
  have hvalue : (config.field "heuristics").field b.id = valueOf hs b := by rw [hhs]; rfl
  have hparameters : ∀ g, (valueOf hs b).field g.name = parameters config b g := fun g => by
    rw [parameters, hvalue]
  by_cases hfilled : IsFilled (valueOf hs b)
  · have hsettings : IsFilled ((config.field "heuristics").field b.id) := by rwa [hvalue]
    obtain ⟨weights, thresholds, hweights, hthresholds, rfl⟩ := checkSection_eq_ok hfilled h
    rw [hparameters] at hweights hthresholds
    have hfirst := reports_group hfits hsettings hweights
    have hsecond := reports_group hfits hsettings hthresholds
    exact (hfirst.append hsecond).cons_kept hsettings
  · have hunset : ¬ IsFilled ((config.field "heuristics").field b.id) := by rwa [hvalue]
    obtain ⟨p, hp, hsubject⟩ := checkSection_of_not_isFilled hfilled
    obtain rfl := Except.ok.inj (hp.symm.trans h)
    have hgroup : ∀ g, Reports config [] (groupConstraints config b g) := by
      intro g
      have hnull : parameters config b g = .null := field_of_not_isFilled hunset g.name
      rw [groupConstraints, hnull]
      exact reports_kept fun hsettings => absurd hsettings hunset
    exact (reports_broken (c := .settings b) hunset hsubject).append
      ((hgroup .weights).append (hgroup .thresholds))

theorem reports_sections {sections : List (List Problem)} (hfits : config.Fits)
    (hhs : config.field "heuristics" = .map hs) {bs : List Builtin}
    (h : bs.mapM (checkSection hs) = .ok sections) :
    Reports config sections.flatten (bs.flatMap (sectionConstraints config)) := by
  have hall := forall₂_of_mapM_ok h
  clear h
  induction hall with
  | nil => rfl
  | cons hfirst _ ih => exact (reports_section hfits hhs hfirst).append ih

end

/-- A sum that is formed and turned into a double is the double of the two numbers. -/
theorem doubleSum?_of_add {m n : Number} {found : List Problem} {f : Float → List Problem}
    (h : (m.add n >>= fun total =>
      match total.number? with
      | some t => t.toDouble >>= fun x => .ok (f x)
      | none => .ok 0.0 >>= fun x => .ok (f x)) = .ok found) :
    ∃ x, doubleSum? m n = some x ∧ f x = found := by
  cases m with
  | int i =>
    cases n with
    | int j =>
      cases hsum : Double.ofInt? (i + j) with
      | none => simp [Number.add, Value.number?, Number.toDouble, hsum] at h
      | some x =>
        refine ⟨x, hsum, ?_⟩
        simpa [Number.add, Value.number?, Number.toDouble, hsum] using h
    | float y =>
      cases hi : Double.ofInt? i with
      | none => simp [Number.add, Number.ofDoubles, Number.toDouble, hi] at h
      | some x =>
        refine ⟨x + y, by simp [doubleSum?, hi], ?_⟩
        simpa [Number.add, Number.ofDoubles, Number.toDouble, hi, Value.number?] using h
  | float x =>
    cases n with
    | int j =>
      cases hj : Double.ofInt? j with
      | none => simp [Number.add, Number.ofDoubles, Number.toDouble, hj] at h
      | some y =>
        refine ⟨x + y, by simp [doubleSum?, hj], ?_⟩
        simpa [Number.add, Number.ofDoubles, Number.toDouble, hj, Value.number?] using h
    | float y =>
      refine ⟨x + y, rfl, ?_⟩
      simpa [Number.add, Number.ofDoubles, Number.toDouble, Value.number?] using h

theorem checkSpecifics_eq_ok {hs : Entries} {found : List Problem}
    (h : checkSpecifics hs = .ok found) :
    ∃ sums review standardization, checkWeightSum hs = .ok sums ∧
      checkOrder hs .coherenceScan "review" "approve" .ge .reviewNotBelowApprove = .ok review ∧
      checkOrder hs .automationCheck "standardization" "automate" .gt
        .standardizationAboveAutomate = .ok standardization ∧
      sums ++ review.toList ++ standardization.toList = found := by
  obtain ⟨sums, hsums, hrest⟩ := bind_eq_ok.mp h
  obtain ⟨review, hreview, hrest⟩ := bind_eq_ok.mp hrest
  obtain ⟨standardization, hstandardization, hfound⟩ := bind_eq_ok.mp hrest
  exact ⟨sums, review, standardization, hsums, hreview, hstandardization, Except.ok.inj hfound⟩

section
variable {config : Value} {hs : Entries} (hhs : config.field "heuristics" = .map hs)
include hhs

theorem groupOf?_iff {b : Builtin} {g : Group} {es : Entries} :
    groupOf? hs b g = some es ↔ parameters config b g = .map es := by
  rw [groupOf?_eq_some, parameters, hhs]
  rfl

theorem reports_weightSum {found : List Problem} (h : checkWeightSum hs = .ok found) :
    Reports config found [.weightSum] := by
  unfold checkWeightSum at h
  cases hgroup : groupOf? hs .backCasting .weights with
  | none =>
    rw [hgroup] at h
    obtain rfl := Except.ok.inj h
    refine reports_kept fun es m n x hes => ?_
    rw [← groupOf?_iff hhs, hgroup] at hes
    cases hes
  | some es =>
    have hes := (groupOf?_iff hhs).mp hgroup
    have hweight : ∀ name, (es.get? name).getD (.int 0) = weightIn es name := fun _ => rfl
    simp only [hgroup, hweight] at h
    split at h
    · next m n hm hn =>
      obtain ⟨x, hx, hfound⟩ := doubleSum?_of_add h
      split at hfound
      · next hfar =>
        subst hfound
        exact reports_broken (fun hkept => hkept es m n x hes hm hn hx hfar) rfl
      · next hnear =>
        subst hfound
        refine reports_kept fun es' m' n' x' hes' hm' hn' hx' => ?_
        obtain rfl := Value.map.inj (hes.symm.trans hes')
        obtain rfl := Option.some.inj (hm.symm.trans hm')
        obtain rfl := Option.some.inj (hn.symm.trans hn')
        obtain rfl := Option.some.inj (hx.symm.trans hx')
        exact hnear
    · next hother =>
      obtain rfl := Except.ok.inj h
      refine reports_kept fun es' m n x hes' hm hn => ?_
      obtain rfl := Value.map.inj (hes.symm.trans hes')
      exact absurd hn (hother m n hm)

/-- A rule between two thresholds, kept when the comparison that breaks it does not hold. -/
theorem reports_order {b : Builtin} {first second : String} {broken : Comparison}
    {problem : Value → Value → Problem} {c : Constraint} {r : ℚ → ℚ → Prop}
    {found : Option Problem} (hfits : config.Fits)
    (hkept : c.Kept config ↔ Ordered config b first second r)
    (hr : ∀ p q : ℚ, r p q ↔ broken.holds (cmp p q) = false)
    (hsubject : ∀ v w, (problem v w).subject = c)
    (h : checkOrder hs b first second broken problem = .ok found) :
    Reports config found.toList [c] := by
  unfold checkOrder at h
  cases hgroup : groupOf? hs b .thresholds with
  | none =>
    rw [hgroup] at h
    obtain rfl := Except.ok.inj h
    refine reports_kept (hkept.mpr fun p q hp => ?_)
    have hnone : ∀ es, parameters config b .thresholds ≠ .map es := fun es hes => by
      rw [← groupOf?_iff hhs, hgroup] at hes
      cases hes
    cases hv : parameters config b .thresholds with
    | map es => exact absurd hv (hnone es)
    | _ => simp [hv, Value.field, quantity?, number?] at hp
  | some es =>
    have hes := (groupOf?_iff hhs).mp hgroup
    have hmap : (Value.map es).Fits := hes ▸ fits_parameters hfits b .thresholds
    have hfield : ∀ name, (es.get? name).getD .null = (Value.map es).field name := fun _ => rfl
    unfold Ordered at hkept
    rw [hes] at hkept
    simp only [hgroup, hfield] at h
    split at h
    · next m n hm hn =>
      obtain ⟨p, hp⟩ := rational_of_fits (fits_field hmap first) hm
      obtain ⟨q, hq⟩ := rational_of_fits (fits_field hmap second) hn
      have hiff : c.Kept config ↔ m.compare broken n = false := by
        rw [hkept, Exact.holds_rational hp hq, ← hr]
        simp only [quantity?_rational_iff hm hp, quantity?_rational_iff hn hq]
        simp
      split at h
      · next hbroken =>
        obtain rfl := eq_of_noted h
        exact reports_broken (by simp [hiff, hbroken]) (hsubject _ _)
      · next hheld =>
        obtain rfl := Except.ok.inj h
        exact reports_kept (hiff.mpr (Bool.eq_false_iff.mpr hheld))
    · next hother =>
      obtain rfl := Except.ok.inj h
      refine reports_kept (hkept.mpr fun p q hp hq => ?_)
      obtain ⟨m, hm, -⟩ := number?_of_quantity? hp
      obtain ⟨n, hn, -⟩ := number?_of_quantity? hq
      exact absurd hn (hother m n hm)

theorem reports_review {found : Option Problem} (hfits : config.Fits)
    (h : checkOrder hs .coherenceScan "review" "approve" .ge .reviewNotBelowApprove = .ok found) :
    Reports config found.toList [.review] :=
  reports_order hhs hfits Iff.rfl (fun p q => by simp [Comparison.holds, cmp_eq_lt_iff])
    (fun _ _ => rfl) h

theorem reports_standardization {found : Option Problem} (hfits : config.Fits)
    (h : checkOrder hs .automationCheck "standardization" "automate" .gt
      .standardizationAboveAutomate = .ok found) :
    Reports config found.toList [.standardization] :=
  reports_order hhs hfits Iff.rfl (fun p q => by simp [Comparison.holds, cmp_eq_gt_iff])
    (fun _ _ => rfl) h

theorem reports_specifics {found : List Problem} (hfits : config.Fits)
    (h : checkSpecifics hs = .ok found) :
    Reports config found [.weightSum, .review, .standardization] := by
  obtain ⟨sums, review, standardization, hsums, hreview, hstandardization, rfl⟩ :=
    checkSpecifics_eq_ok h
  exact ((reports_weightSum hhs hsums).append (reports_review hhs hfits hreview)).append
    (reports_standardization hhs hfits hstandardization)

end

theorem reports_flag {config v : Value} {p : Problem} {c : Constraint}
    (hkept : c.Kept config ↔ IsFlag v) (hp : p.subject = c) :
    Reports config (checkFlag v p) [c] := by
  unfold IsFlag at hkept
  unfold checkFlag
  split
  · exact reports_kept (hkept.mpr (.inl rfl))
  · exact reports_kept (hkept.mpr (.inr ⟨_, rfl⟩))
  · next hnull hbool =>
    refine reports_broken ?_ hp
    rw [hkept]
    rintro (rfl | ⟨b, rfl⟩)
    · exact hnull rfl
    · exact hbool b rfl

theorem reports_minimum {config v : Value} (hv : v.Fits)
    (hkept : Constraint.minimum.Kept config ↔
      v = .null ∨ ∃ q, quantity? v = some (.rational q) ∧ 0 ≤ q ∧ q ≤ 10) :
    Reports config (checkMinimum v) [.minimum] := by
  unfold checkMinimum
  split
  · exact reports_kept (hkept.mpr (.inl rfl))
  · next hnull =>
    cases hn : number? v with
    | none =>
      refine reports_broken ?_ rfl
      rw [hkept]
      rintro (rfl | ⟨q, hq, -⟩)
      · exact hnull rfl
      · exact number?_eq_none_of_quantity? hn _ hq
    | some n =>
      obtain ⟨q, hq⟩ := rational_of_fits hv hn
      have hiff : Constraint.minimum.Kept config ↔
          (n.compare .lt (.int 0) || n.compare .gt (.int 10)) = false := by
        rw [hkept, Bool.or_eq_false_iff, Exact.not_lt_int hq, Exact.not_gt_int hq]
        have hne : v ≠ .null := hnull
        simp [quantity?_rational_iff hn hq, hne]
      dsimp only
      split
      · next hout =>
        have hbroken : ¬ Constraint.minimum.Kept config := by simp [hiff, hout]
        exact reports_broken hbroken rfl
      · next hin => exact reports_kept (hiff.mpr (Bool.eq_false_iff.mpr hin))

theorem reports_validation {config : Value} (hfits : config.Fits) :
    Reports config (checkValidation (config.field "validation"))
      [.validation, .strictMode, .minimum, .enableVeto] := by
  have hvalidation : Constraint.validation.Kept config ↔
      config.field "validation" = .null ∨ ∃ es, config.field "validation" = .map es := Iff.rfl
  have hstrict : Constraint.strictMode.Kept config ↔
      IsFlag ((config.field "validation").field "strict_mode") := Iff.rfl
  have hminimum : Constraint.minimum.Kept config ↔
      (config.field "validation").field "minimum_score" = .null ∨
        ∃ q, quantity? ((config.field "validation").field "minimum_score") = some (.rational q) ∧
          0 ≤ q ∧ q ≤ 10 := Iff.rfl
  have hveto : Constraint.enableVeto.Kept config ↔
      IsFlag ((config.field "validation").field "enable_veto") := Iff.rfl
  have hfield := fits_field (fits_field hfits "validation")
  generalize config.field "validation" = v at hvalidation hstrict hminimum hveto hfield ⊢
  -- Nothing is asked of the fields of what is no mapping.
  have hinside : (∀ name, v.field name = .null) →
      Reports config [] [.strictMode, .minimum, .enableVeto] := by
    intro hnull
    rw [hnull] at hstrict hminimum hveto
    exact ((reports_kept (hveto.mpr (.inl rfl))).cons_kept (hminimum.mpr (.inl rfl))).cons_kept
      (hstrict.mpr (.inl rfl))
  cases v with
  | null => exact (hinside fun _ => rfl).cons_kept (hvalidation.mpr (.inl rfl))
  | map es =>
    have hfields := ((reports_flag (p := .strictModeNotFlag) hstrict rfl).append
      (reports_minimum (hfield _) hminimum)).append
      (reports_flag (p := .enableVetoNotFlag) hveto rfl)
    exact hfields.cons_kept (hvalidation.mpr (.inr ⟨es, rfl⟩))
  | _ =>
    have hbroken : ¬ Constraint.validation.Kept config := by simp [hvalidation]
    exact (reports_broken hbroken rfl).append (hinside fun _ => rfl)

/-- What the parts of a check that comes to an end have found. -/
inductive Findings (config : Value) (hs : Entries) : List Problem → Prop
  | intro {sections : List (List Problem)} {specifics : List Problem} :
      Builtin.all.mapM (checkSection hs) = .ok sections → checkSpecifics hs = .ok specifics →
      Findings config hs (checkVersion (config.field "version") ++ sections.flatten ++ specifics ++
        checkValidation (config.field "validation"))

section
variable {config : Value} {hs : Entries} {problems : List Problem}

theorem findings_of_check (hhs : config.field "heuristics" = .map hs) (hne : hs ≠ [])
    (h : check config = .ok problems) : Findings config hs problems := by
  obtain ⟨c, rfl, hc⟩ := map_of_field hhs
  have hheuristics : (Entries.get? c "heuristics").getD .null = .map hs := hhs
  have hempty : c.isEmpty = false := by simpa using hc
  simp only [check, hempty, Bool.false_eq_true, if_false, checkEntries, hheuristics,
    isTruthy_map hne, Bool.not_true] at h
  obtain ⟨sections, hsections, hrest⟩ := bind_eq_ok.mp h
  obtain ⟨specifics, hspecifics, hproblems⟩ := bind_eq_ok.mp hrest
  obtain rfl := Except.ok.inj hproblems
  exact .intro hsections hspecifics

/-- The problems of a document are its broken rules, one by one. -/
theorem reports_check (hhs : config.field "heuristics" = .map hs) (hne : hs ≠ [])
    (hfits : config.Fits) (h : check config = .ok problems) :
    Reports config problems (constraints config) := by
  obtain ⟨c, hc, hcne⟩ := map_of_field hhs
  cases findings_of_check hhs hne h with
  | intro hsections hspecifics =>
    have hversion : Reports config (checkVersion (config.field "version"))
        [.document, .version, .heuristics] := by
      have htail : Reports config [] [.heuristics] := reports_kept ⟨hs, hhs, hne⟩
      have hfirst := (reports_version config).append htail
      rw [List.append_nil] at hfirst
      exact hfirst.cons_kept (c := .document) ⟨c, hc, hcne⟩
    exact ((hversion.append (reports_sections hfits hhs hsections)).append
      (reports_specifics hhs hfits hspecifics)).append (reports_validation hfits)

end

end Config
end DecisionGate
