import DecisionGate.Proofs.Tolerance

/-!
# Accepted documents

A document in which the check finds nothing has everything that a configuration has to have, each
number in its range and the rules between numbers kept, except for numbers that are not finite.
Every rule refuses what lies outside a range, and NaN lies on no side of anything; an infinite
weight is not below zero.
-/
namespace DecisionGate

namespace Config

/-- What a number of a document stands for. -/
def quantity? (v : Value) : Option Exact := (number? v).map Exact.ofNumber

/-- A finite number that is not negative. -/
def IsWeight (v : Value) : Prop := ∃ q, quantity? v = some (.rational q) ∧ 0 ≤ q

def IsRatio (v : Value) : Prop := ∃ q, quantity? v = some (.rational q) ∧ 0 ≤ q ∧ q ≤ 1

def IsRepetitions (v : Value) : Prop := ∃ n : ℤ, quantity? v = some (.rational n) ∧ 1 ≤ n

def IsThreshold (key : Key) (v : Value) : Prop :=
  if key.sameAs (.str "tipping_point") then IsRepetitions v else IsRatio v

/-- The parameters of one group of a heuristic. -/
def parameters (config : Value) (b : Builtin) (g : Group) : Value :=
  ((config.field "heuristics").field b.id).field g.name

/-- What a document has to be. -/
structure Sound (config : Value) : Prop where
  version : ∃ s, config.field "version" = .str s ∧ s ≠ ""
  groups : ∀ b g, ∃ es, parameters config b g = .map es ∧ es ≠ []
  weights : ∀ b es, parameters config b .weights = .map es → ∀ e ∈ es, IsWeight e.2
  thresholds : ∀ b es, parameters config b .thresholds = .map es → ∀ e ∈ es, IsThreshold e.1 e.2
  weightSum : ∀ es : Entries, parameters config .backCasting .weights = .map es → ∃ p q,
    quantity? ((es.get? "end_state_vision").getD (.int 0)) = some (.rational p) ∧
      quantity? ((es.get? "current_market_signals").getD (.int 0)) = some (.rational q) ∧
      |p + q - 1| ≤ 1 / 100
  review : ∀ (es : Entries) v w, parameters config .coherenceScan .thresholds = .map es →
    es.get? "review" = some v → es.get? "approve" = some w →
    ∃ p q, quantity? v = some (.rational p) ∧ quantity? w = some (.rational q) ∧ p < q
  standardization : ∀ (es : Entries) v w, parameters config .automationCheck .thresholds = .map es →
    es.get? "standardization" = some v → es.get? "automate" = some w →
    ∃ p q, quantity? v = some (.rational p) ∧ quantity? w = some (.rational q) ∧ p ≤ q
  minimum : ∀ v, (config.field "validation").field "minimum_score" = v → v ≠ .null →
    ∃ q, quantity? v = some (.rational q) ∧ 0 ≤ q ∧ q ≤ 10

/-- A document without the numbers that are not finite, as far as they are let through. -/
structure Definite (config : Value) : Prop where
  weights : ∀ b es, parameters config b .weights = .map es →
    ∀ e ∈ es, ∀ x, e.2 = .float x → Double.isFinite x = true
  thresholds : ∀ b es, parameters config b .thresholds = .map es →
    ∀ e ∈ es, ∀ x, e.2 = .float x → Double.isNaN x = false
  minimum : ∀ x, (config.field "validation").field "minimum_score" = .float x →
    Double.isNaN x = false

/-- The steps of a check that finds nothing. -/
structure Accepts (config : Value) (hs : Entries) : Prop where
  version : checkVersion (config.field "version") = []
  heuristics : config.field "heuristics" = .map hs
  sections : ∀ b, checkSection hs b = .ok []
  weightSum : checkWeightSum hs = .ok []
  review : checkOrder hs .coherenceScan "review" "approve" .ge .reviewNotBelowApprove = .ok none
  standardization : checkOrder hs .automationCheck "standardization" "automate" .gt
    .standardizationAboveAutomate = .ok none
  validation : checkValidation (config.field "validation") = []

theorem checkSpecifics_ok {hs : Entries} (h : checkSpecifics hs = .ok []) :
    checkWeightSum hs = .ok [] ∧
      checkOrder hs .coherenceScan "review" "approve" .ge .reviewNotBelowApprove = .ok none ∧
      checkOrder hs .automationCheck "standardization" "automate" .gt
        .standardizationAboveAutomate = .ok none := by
  obtain ⟨sums, hsums, hrest⟩ := bind_eq_ok.mp h
  obtain ⟨review, hreview, hrest⟩ := bind_eq_ok.mp hrest
  obtain ⟨standardization, hstandardization, hrest⟩ := bind_eq_ok.mp hrest
  have hall := Except.ok.inj hrest
  simp only [List.append_eq_nil_iff, Option.toList_eq_nil_iff] at hall
  obtain ⟨⟨rfl, rfl⟩, rfl⟩ := hall
  exact ⟨hsums, hreview, hstandardization⟩

theorem accepts_of_check {config : Value} (h : check config = .ok []) :
    ∃ hs, Accepts config hs := by
  cases config with
  | map es =>
    simp only [check] at h
    split at h
    · cases h
    · simp only [checkEntries] at h
      split at h
      · simp at h
      · split at h
        · next hs hheuristics =>
          obtain ⟨sections, hsections, hrest⟩ := bind_eq_ok.mp h
          obtain ⟨specifics, hspecifics, hrest⟩ := bind_eq_ok.mp hrest
          have hall := Except.ok.inj hrest
          simp only [List.append_eq_nil_iff] at hall
          obtain ⟨⟨⟨hversion, hflat⟩, rfl⟩, hvalidation⟩ := hall
          obtain ⟨hsum, hreview, hstandardization⟩ := checkSpecifics_ok hspecifics
          refine ⟨hs, hversion, hheuristics, ?_, hsum, hreview, hstandardization, hvalidation⟩
          intro b
          obtain ⟨found, hfound, hb⟩ := exists_of_mapM_ok hsections b.mem_all
          rw [hb, List.flatten_eq_nil_iff.mp hflat found hfound]
        · simp at h
  | _ => simp [check] at h

theorem checkVersion_eq_nil {v : Value} (h : checkVersion v = []) : ∃ s, v = .str s ∧ s ≠ "" := by
  unfold checkVersion at h
  split at h
  · cases h
  · cases h
  · next s hne => exact ⟨s, rfl, hne⟩
  · cases h

theorem noted_ne_none (p : Problem) : noted p ≠ .ok none := by
  unfold noted
  split <;> simp

theorem checkGroup_eq_ok {b : Builtin} {g : Group} {v : Value} {es : Entries}
    (h : checkGroup b g v = .ok es) : v = .map es ∧ es ≠ [] := by
  unfold checkGroup at h
  split at h
  · cases h
  · next htruthy =>
    cases v with
    | map es' =>
      obtain rfl := Except.ok.inj h
      refine ⟨rfl, ?_⟩
      rintro rfl
      exact htruthy rfl
    | _ => cases h

/-- A group in which nothing is found has entries, and each of them passes. -/
theorem checkEach_eq_nil {b : Builtin} {g : Group} {v : Value}
    {check : Builtin → Key → Value → Except Fault (Option Problem)}
    (h : checkEach b g check v = .ok []) :
    ∃ es, v = .map es ∧ es ≠ [] ∧ ∀ e ∈ es, check b e.1 e.2 = .ok none := by
  unfold checkEach at h
  split at h
  · cases h
  · next es hes =>
    obtain ⟨rfl, hne⟩ := checkGroup_eq_ok hes
    obtain ⟨found, hfound, hnone⟩ := bind_eq_ok.mp h
    refine ⟨es, rfl, hne, fun e he => ?_⟩
    obtain ⟨y, hy, hcheck⟩ := exists_of_mapM_ok hfound he
    have hempty := List.filterMap_eq_nil_iff.mp (Except.ok.inj hnone) y hy
    exact hcheck.trans (congrArg Except.ok hempty)

theorem checkSection_eq_nil {hs : Entries} {b : Builtin} (h : checkSection hs b = .ok []) :
    let section_ := (hs.get? b.id).getD .null
    checkEach b .weights checkWeight (section_.field Group.weights.name) = .ok [] ∧
      checkEach b .thresholds checkThreshold (section_.field Group.thresholds.name) = .ok [] := by
  simp only [checkSection] at h
  split at h
  · simp at h
  · split at h
    · next es hes =>
      obtain ⟨weights, hweights, hrest⟩ := bind_eq_ok.mp h
      obtain ⟨thresholds, hthresholds, hrest⟩ := bind_eq_ok.mp hrest
      obtain ⟨rfl, rfl⟩ := List.append_eq_nil_iff.mp (Except.ok.inj hrest)
      exact ⟨hweights, hthresholds⟩
    · simp at h

/-- An entry that passes is a number. -/
theorem checkWeight_eq_none {b : Builtin} {key : Key} {v : Value}
    (h : checkWeight b key v = .ok none) :
    ∃ n, number? v = some n ∧ n.compare .lt (.int 0) = false := by
  unfold checkWeight at h
  split at h
  · exact absurd h (noted_ne_none _)
  · next n hn =>
    split at h
    · exact absurd h (noted_ne_none _)
    · next hlt => exact ⟨n, hn, Bool.eq_false_iff.mpr hlt⟩

theorem checkThreshold_eq_none {b : Builtin} {key : Key} {v : Value}
    (h : checkThreshold b key v = .ok none) :
    ∃ n, number? v = some n ∧
      if key.sameAs (.str "tipping_point") then
        n.compare .lt (.int 1) = false ∧
          ∃ x, n.toDouble = .ok x ∧ Double.isIntegral x = true
      else n.compare .lt (.int 0) = false ∧ n.compare .gt (.int 1) = false := by
  unfold checkThreshold at h
  split at h
  · exact absurd h (noted_ne_none _)
  · next n hn =>
    refine ⟨n, hn, ?_⟩
    split at h
    · next hkey =>
      rw [if_pos hkey]
      split at h
      · exact absurd h (noted_ne_none _)
      · next hlt =>
        obtain ⟨x, hx, hrest⟩ := bind_eq_ok.mp h
        split at hrest
        · next hintegral => exact ⟨Bool.eq_false_iff.mpr hlt, x, hx, hintegral⟩
        · exact absurd hrest (noted_ne_none _)
    · next hkey =>
      rw [if_neg hkey]
      split at h
      · exact absurd h (noted_ne_none _)
      · next hout => simpa using hout

theorem ofNumber_of_isFinite {v : Value} {n : Number} (hn : number? v = some n)
    (h : ∀ x, v = .float x → Double.isFinite x = true) : ∃ q, Exact.ofNumber n = .rational q := by
  cases v with
  | int i =>
    obtain rfl := Option.some.inj hn
    exact ⟨i, rfl⟩
  | float x =>
    obtain rfl := Option.some.inj hn
    exact Exact.isFinite_iff.mp (h x rfl)
  | _ => simp [number?] at hn

theorem ofNumber_ne_nan {v : Value} {n : Number} (hn : number? v = some n)
    (h : ∀ x, v = .float x → Double.isNaN x = false) : Exact.ofNumber n ≠ .nan := by
  cases v with
  | int i =>
    obtain rfl := Option.some.inj hn
    simp [Exact.ofNumber]
  | float x =>
    obtain rfl := Option.some.inj hn
    intro hnan
    simpa [Exact.isNaN_iff.mpr hnan] using h x rfl
  | _ => simp [number?] at hn

theorem quantity?_eq {v : Value} {n : Number} {a : Exact} (hn : number? v = some n)
    (ha : Exact.ofNumber n = a) : quantity? v = some a := by
  rw [quantity?, hn, Option.map_some, ha]

theorem isWeight_of_check {b : Builtin} {key : Key} {v : Value}
    (h : checkWeight b key v = .ok none) (hv : ∀ x, v = .float x → Double.isFinite x = true) :
    IsWeight v := by
  obtain ⟨n, hn, hlt⟩ := checkWeight_eq_none h
  obtain ⟨q, hq⟩ := ofNumber_of_isFinite hn hv
  exact ⟨q, quantity?_eq hn hq, by simpa using (Exact.not_lt_int hq 0).mp hlt⟩

/-- A number that becomes an integral double is an integer. -/
theorem isRepetitions_of_integral {n : Number} {x : Float} (hx : n.toDouble = .ok x)
    (hintegral : Double.isIntegral x = true) : ∃ i : ℤ, Exact.ofNumber n = .rational i := by
  cases n with
  | int i => exact ⟨i, rfl⟩
  | float y =>
    obtain rfl := Except.ok.inj hx
    exact Exact.ofDouble_of_isIntegral hintegral

theorem isThreshold_of_check {b : Builtin} {key : Key} {v : Value}
    (h : checkThreshold b key v = .ok none) (hv : ∀ x, v = .float x → Double.isNaN x = false) :
    IsThreshold key v := by
  obtain ⟨n, hn, hcase⟩ := checkThreshold_eq_none h
  unfold IsThreshold
  split at hcase
  · next hkey =>
    rw [if_pos hkey]
    obtain ⟨hlt, x, hx, hintegral⟩ := hcase
    obtain ⟨i, hi⟩ := isRepetitions_of_integral hx hintegral
    have hle := (Exact.not_lt_int hi 1).mp hlt
    exact ⟨i, quantity?_eq hn hi, by exact_mod_cast hle⟩
  · next hkey =>
    rw [if_neg hkey]
    obtain ⟨q, hq, hlow, hhigh⟩ := Exact.between_ints (ofNumber_ne_nan hn hv) hcase.1 hcase.2
    exact ⟨q, quantity?_eq hn hq, by simpa using hlow, by simpa using hhigh⟩

theorem checkMinimum_eq_nil {v : Value} (h : checkMinimum v = []) (hnull : v ≠ .null)
    (hv : ∀ x, v = .float x → Double.isNaN x = false) :
    ∃ q, quantity? v = some (.rational q) ∧ 0 ≤ q ∧ q ≤ 10 := by
  unfold checkMinimum at h
  split at h
  · exact absurd rfl hnull
  · split at h
    · cases h
    · next n hn =>
      split at h
      · cases h
      · next hout =>
        simp only [Bool.or_eq_true, not_or, Bool.not_eq_true] at hout
        obtain ⟨q, hq, hlow, hhigh⟩ := Exact.between_ints (ofNumber_ne_nan hn hv) hout.1 hout.2
        exact ⟨q, quantity?_eq hn hq, by simpa using hlow, by simpa using hhigh⟩

theorem eq_str_of_sameAs {k : Key} {s : String} (h : k.sameAs (.str s) = true) : k = .str s := by
  cases k <;> simp_all [Key.sameAs, Key.integer?]

/-- A value that is found under a name is that of an entry. -/
theorem mem_of_get? {es : Entries} {name : String} {v : Value} (h : es.get? name = some v) :
    (.str name, v) ∈ es := by
  unfold Entries.get? at h
  induction es with
  | nil => simp [Entries.find?] at h
  | cons e rest ih =>
    obtain ⟨k, w⟩ := e
    simp only [Entries.find?] at h
    split at h
    · next hkey =>
      obtain rfl := eq_str_of_sameAs hkey
      obtain rfl := Option.some.inj h
      exact List.mem_cons_self
    · exact List.mem_cons_of_mem _ (ih h)

theorem checkOrder_eq_none {hs : Entries} {b : Builtin} {first second : String}
    {broken : Comparison} {problem : Value → Value → Problem} {es : Entries} {v w : Value}
    {m n : Number} (h : checkOrder hs b first second broken problem = .ok none)
    (hes : groupOf? hs b .thresholds = some es) (hv : es.get? first = some v)
    (hw : es.get? second = some w) (hm : number? v = some m) (hn : number? w = some n) :
    m.compare broken n = false := by
  simp only [checkOrder, hes, hv, hw, Option.getD_some, hm, hn] at h
  split at h
  · exact absurd h (noted_ne_none _)
  · next hbroken => exact Bool.eq_false_iff.mpr hbroken

theorem number?_of_quantity? {v : Value} {a : Exact} (h : quantity? v = some a) :
    ∃ n, number? v = some n ∧ Exact.ofNumber n = a := by
  simpa [quantity?] using h

/-- The sum of two weights that is let through, and the double it is compared as. -/
theorem sum_of_checkWeightSum {hs es : Entries} {v w : Value} {m n : Number}
    (h : checkWeightSum hs = .ok []) (hes : groupOf? hs .backCasting .weights = some es)
    (hv : (es.get? "end_state_vision").getD (.int 0) = v)
    (hw : (es.get? "current_market_signals").getD (.int 0) = w) (hm : number? v = some m)
    (hn : number? w = some n) :
    ∃ total t x, m.add n = .ok total ∧ total.number? = some t ∧ t.toDouble = .ok x ∧
      ¬ (x - 1.0).abs > tolerance := by
  simp only [checkWeightSum, hes, hv, hw, hm, hn] at h
  obtain ⟨total, hadd, hrest⟩ := bind_eq_ok.mp h
  obtain ⟨t, ht⟩ : ∃ t, total.number? = some t := by
    rcases Exact.add_eq_ok hadd with ⟨i, j, -, -, rfl⟩ | ⟨y, z, -, -, rfl⟩ <;> exact ⟨_, rfl⟩
  simp only [ht] at hrest
  obtain ⟨x, hx, hfar⟩ := bind_eq_ok.mp hrest
  refine ⟨total, t, x, hadd, ht, hx, ?_⟩
  intro hgt
  rw [if_pos hgt] at hfar
  cases hfar

theorem checkWeightSum_eq_nil {hs es : Entries} {v w : Value} (h : checkWeightSum hs = .ok [])
    (hes : groupOf? hs .backCasting .weights = some es)
    (hv : (es.get? "end_state_vision").getD (.int 0) = v)
    (hw : (es.get? "current_market_signals").getD (.int 0) = w) (hvw : IsWeight v)
    (hww : IsWeight w) :
    ∃ p q, quantity? v = some (.rational p) ∧ quantity? w = some (.rational q) ∧
      |p + q - 1| ≤ 1 / 100 := by
  obtain ⟨p, hvp, hp⟩ := hvw
  obtain ⟨q, hwq, hq⟩ := hww
  obtain ⟨m, hm, hmp⟩ := number?_of_quantity? hvp
  obtain ⟨n, hn, hnq⟩ := number?_of_quantity? hwq
  obtain ⟨total, t, x, hadd, ht, hx, hnear⟩ := sum_of_checkWeightSum h hes hv hw hm hn
  exact ⟨p, q, hvp, hwq, Exact.weights_near_one hmp hnq hp hq hadd ht hx hnear⟩

section
variable {config : Value} {hs : Entries}

theorem Accepts.parameters_eq (h : Accepts config hs) (b : Builtin) (g : Group) :
    parameters config b g = ((hs.get? b.id).getD .null).field g.name := by
  rw [parameters, h.heuristics]
  rfl

theorem Accepts.groupOf?_eq (h : Accepts config hs) {b : Builtin} {g : Group} {es : Entries}
    (hes : parameters config b g = .map es) : groupOf? hs b g = some es := by
  rw [groupOf?, ← h.parameters_eq, hes]
  rfl

/-- The entries of a group pass the check of the group. -/
theorem Accepts.weights (h : Accepts config hs) (b : Builtin) :
    ∃ es, parameters config b .weights = .map es ∧ es ≠ [] ∧
      ∀ e ∈ es, checkWeight b e.1 e.2 = .ok none := by
  rw [h.parameters_eq]
  exact checkEach_eq_nil (checkSection_eq_nil (h.sections b)).1

theorem Accepts.thresholds (h : Accepts config hs) (b : Builtin) :
    ∃ es, parameters config b .thresholds = .map es ∧ es ≠ [] ∧
      ∀ e ∈ es, checkThreshold b e.1 e.2 = .ok none := by
  rw [h.parameters_eq]
  exact checkEach_eq_nil (checkSection_eq_nil (h.sections b)).2

theorem Accepts.checkWeight (h : Accepts config hs) {b : Builtin} {es : Entries}
    (hes : parameters config b .weights = .map es) {e : Key × Value} (he : e ∈ es) :
    checkWeight b e.1 e.2 = .ok none := by
  obtain ⟨es', hes', -, heach⟩ := h.weights b
  obtain rfl : es' = es := Value.map.inj (hes'.symm.trans hes)
  exact heach e he

theorem Accepts.checkThreshold (h : Accepts config hs) {b : Builtin} {es : Entries}
    (hes : parameters config b .thresholds = .map es) {e : Key × Value} (he : e ∈ es) :
    checkThreshold b e.1 e.2 = .ok none := by
  obtain ⟨es', hes', -, heach⟩ := h.thresholds b
  obtain rfl : es' = es := Value.map.inj (hes'.symm.trans hes)
  exact heach e he

theorem Accepts.minimum (h : Accepts config hs) :
    checkMinimum ((config.field "validation").field "minimum_score") = [] := by
  have hvalidation := h.validation
  generalize config.field "validation" = v at hvalidation ⊢
  unfold checkValidation at hvalidation
  split at hvalidation
  · rfl
  · simp only [List.append_eq_nil_iff] at hvalidation
    exact hvalidation.1.2
  · cases hvalidation

theorem isWeight_of_accepts (h : Accepts config hs) (hdefinite : Definite config) {b : Builtin}
    {es : Entries} (hes : parameters config b .weights = .map es) {e : Key × Value} (he : e ∈ es) :
    IsWeight e.2 :=
  isWeight_of_check (h.checkWeight hes he) (hdefinite.weights b es hes e he)

theorem isThreshold_of_accepts (h : Accepts config hs) (hdefinite : Definite config) {b : Builtin}
    {es : Entries} (hes : parameters config b .thresholds = .map es) {e : Key × Value}
    (he : e ∈ es) : IsThreshold e.1 e.2 :=
  isThreshold_of_check (h.checkThreshold hes he) (hdefinite.thresholds b es hes e he)

/-- Every threshold but the tipping point is a ratio. -/
theorem ratio_of_accepts (h : Accepts config hs) (hdefinite : Definite config) {b : Builtin}
    {es : Entries} (hes : parameters config b .thresholds = .map es) {name : String} {v : Value}
    (hname : name ≠ "tipping_point") (hv : es.get? name = some v) : IsRatio v := by
  have hthreshold := isThreshold_of_accepts h hdefinite hes (mem_of_get? hv)
  unfold IsThreshold at hthreshold
  rwa [if_neg] at hthreshold
  simpa [Key.sameAs] using hname

/-- A rule is not broken between the numbers of two thresholds that are both there. -/
theorem Accepts.order_of_quantities (h : Accepts config hs) {b : Builtin} {es : Entries}
    (hes : parameters config b .thresholds = .map es) {first second : String}
    {broken : Comparison} {problem : Value → Value → Problem} {v w : Value} {p q : ℚ}
    (hcheck : checkOrder hs b first second broken problem = .ok none)
    (hv : es.get? first = some v) (hw : es.get? second = some w)
    (hp : quantity? v = some (.rational p)) (hq : quantity? w = some (.rational q)) :
    broken.holds (cmp p q) = false := by
  obtain ⟨m, hm, hmp⟩ := number?_of_quantity? hp
  obtain ⟨n, hn, hnq⟩ := number?_of_quantity? hq
  rw [← Exact.holds_rational hmp hnq]
  exact checkOrder_eq_none hcheck (h.groupOf?_eq hes) hv hw hm hn

/-- Two thresholds between which a rule is not broken. -/
theorem order_of_accepts (h : Accepts config hs) (hdefinite : Definite config) {b : Builtin}
    {es : Entries} (hes : parameters config b .thresholds = .map es) {first second : String}
    {broken : Comparison} {problem : Value → Value → Problem} {v w : Value}
    (hcheck : checkOrder hs b first second broken problem = .ok none)
    (hfirst : first ≠ "tipping_point") (hsecond : second ≠ "tipping_point")
    (hv : es.get? first = some v) (hw : es.get? second = some w) :
    ∃ p q, quantity? v = some (.rational p) ∧ quantity? w = some (.rational q) ∧
      broken.holds (cmp p q) = false := by
  obtain ⟨p, hp, -⟩ := ratio_of_accepts h hdefinite hes hfirst hv
  obtain ⟨q, hq, -⟩ := ratio_of_accepts h hdefinite hes hsecond hw
  exact ⟨p, q, hp, hq, h.order_of_quantities hes hcheck hv hw hp hq⟩

theorem quantity?_zero : quantity? (.int 0) = some (.rational 0) := by
  simp [quantity?, number?, Exact.ofNumber]

theorem isWeight_zero : IsWeight (.int 0) := ⟨0, quantity?_zero, le_rfl⟩

/-- A weight that counts as nothing when it is absent. -/
theorem weight_of_accepts (h : Accepts config hs) (hdefinite : Definite config) {b : Builtin}
    {es : Entries} (hes : parameters config b .weights = .map es) (name : String) :
    IsWeight ((es.get? name).getD (.int 0)) := by
  cases hv : es.get? name with
  | none => exact isWeight_zero
  | some v => exact isWeight_of_accepts h hdefinite hes (mem_of_get? hv)

theorem sound_of_accepts (h : Accepts config hs) (hdefinite : Definite config) : Sound config where
  version := checkVersion_eq_nil h.version
  groups b g := by
    cases g with
    | weights =>
      obtain ⟨es, hes, hne, -⟩ := h.weights b
      exact ⟨es, hes, hne⟩
    | thresholds =>
      obtain ⟨es, hes, hne, -⟩ := h.thresholds b
      exact ⟨es, hes, hne⟩
  weights b es hes e he := isWeight_of_accepts h hdefinite hes he
  thresholds b es hes e he := isThreshold_of_accepts h hdefinite hes he
  weightSum es hes :=
    checkWeightSum_eq_nil h.weightSum (h.groupOf?_eq hes) rfl rfl
      (weight_of_accepts h hdefinite hes _) (weight_of_accepts h hdefinite hes _)
  review es v w hes hv hw := by
    obtain ⟨p, q, hp, hq, hholds⟩ :=
      order_of_accepts h hdefinite hes h.review (by decide) (by decide) hv hw
    refine ⟨p, q, hp, hq, ?_⟩
    simpa [Comparison.holds, cmp_eq_lt_iff] using hholds
  standardization es v w hes hv hw := by
    obtain ⟨p, q, hp, hq, hholds⟩ :=
      order_of_accepts h hdefinite hes h.standardization (by decide) (by decide) hv hw
    refine ⟨p, q, hp, hq, ?_⟩
    simpa [Comparison.holds, cmp_eq_gt_iff] using hholds
  minimum v hv hnull := by
    subst hv
    exact checkMinimum_eq_nil h.minimum hnull hdefinite.minimum

end

theorem isFinite_of_quantity? {x : Float} {q : ℚ} (h : quantity? (.float x) = some (.rational q)) :
    Double.isFinite x = true :=
  Exact.isFinite_iff.mpr ⟨q, by simpa [quantity?, number?, Exact.ofNumber] using h⟩

theorem isNaN_of_quantity? {x : Float} {q : ℚ} (h : quantity? (.float x) = some (.rational q)) :
    Double.isNaN x = false := by
  have hx : Exact.ofDouble x = .rational q := by
    simpa [quantity?, number?, Exact.ofNumber] using h
  rw [Bool.eq_false_iff, ne_eq, Exact.isNaN_iff, hx]
  simp

theorem quantity?_of_isThreshold {key : Key} {v : Value} (h : IsThreshold key v) :
    ∃ q, quantity? v = some (.rational q) := by
  unfold IsThreshold at h
  split at h
  · obtain ⟨n, hn, -⟩ := h
    exact ⟨n, hn⟩
  · obtain ⟨q, hq, -⟩ := h
    exact ⟨q, hq⟩

theorem definite_of_sound {config : Value} (h : Sound config) : Definite config where
  weights b es hes e he x hx := by
    obtain ⟨q, hq, -⟩ := h.weights b es hes e he
    rw [hx] at hq
    exact isFinite_of_quantity? hq
  thresholds b es hes e he x hx := by
    obtain ⟨q, hq⟩ := quantity?_of_isThreshold (h.thresholds b es hes e he)
    rw [hx] at hq
    exact isNaN_of_quantity? hq
  minimum x hx := by
    obtain ⟨q, hq, -⟩ := h.minimum _ hx (by simp)
    exact isNaN_of_quantity? hq

/-- A document in which nothing is found is sound exactly when it holds no number that is not
finite. -/
theorem check_sound_iff {config : Value} (h : check config = .ok []) :
    Sound config ↔ Definite config := by
  obtain ⟨hs, haccepts⟩ := accepts_of_check h
  exact ⟨definite_of_sound, sound_of_accepts haccepts⟩

theorem check_eq_nil_of_isEmpty {config : Value}
    (h : (check config).toOption.any List.isEmpty = true) : check config = .ok [] := by
  obtain ⟨problems, hproblems, hempty⟩ := any_toOption_iff.mp h
  rw [hproblems, List.isEmpty_iff.mp hempty]

theorem check_sound_default :
    check (.map defaultEntries) = .ok [] ∧
      (Sound (.map defaultEntries) ↔ Definite (.map defaultEntries)) := by
  have h : check (.map defaultEntries) = .ok [] := check_eq_nil_of_isEmpty (by decide +kernel)
  exact ⟨h, check_sound_iff h⟩

/-- The default document, with other weights of one heuristic. -/
def documentWith (b : Builtin) (weights : Entries) : Entries :=
  Entries.ofNames
    [("version", .str "1.0"),
     ("heuristics", Value.ofNames (Builtin.all.map fun c => (c.id,
        if c = b then
          Value.ofNames
            [("weights", .map weights), ("thresholds", Value.ofNames (defaultThresholds b))]
        else defaultSection c)))]

/-- Weights of which one is no number. -/
def nanWeights : Entries :=
  Entries.ofNames [("end_state_vision", .float Double.nan), ("current_market_signals", .float 0.2)]

theorem nanWeights_accepted :
    check (.map (documentWith .backCasting nanWeights)) = .ok [] ∧
      ¬ Sound (.map (documentWith .backCasting nanWeights)) := by
  refine ⟨check_eq_nil_of_isEmpty (by decide +kernel), ?_⟩
  intro hsound
  have hfinite := (definite_of_sound hsound).weights .backCasting nanWeights rfl
    (.str "end_state_vision", .float Double.nan) List.mem_cons_self Double.nan rfl
  exact absurd hfinite (by decide +kernel)

end Config
end DecisionGate
