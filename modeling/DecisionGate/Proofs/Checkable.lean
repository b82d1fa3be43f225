import DecisionGate.Proofs.Parameters
import DecisionGate.Proofs.Reload
import DecisionGate.Proofs.Report

/-!
# Documents that can be checked

The check of a document is meant to end with a report whatever it finds, and the choice of the
configuration with a configuration. But a report shows the integers that it refuses, and an integer
can be too long to be shown; and some integers are turned into doubles first, which no double holds
when they are too large. This module says exactly which documents the check does not survive, and
that it is the same documents, as they come out in the environment, for which no configuration is
chosen. Without a document one is always chosen: no variable puts an integer into the defaults.
-/
namespace DecisionGate

namespace Config

open Gate (TooLarge fails_toDouble)

/-- Whether a number lies outside of the range of its parameter. -/
def isOutside (g : Group) (key : Key) (n : Number) : Bool :=
  match g with
  | .weights => n.compare .lt (.int 0)
  | .thresholds =>
    if key.sameAs (.str "tipping_point") then n.compare .lt (.int 1)
    else n.compare .lt (.int 0) || n.compare .gt (.int 1)

/-- An entry that ends its check: it is refused and its key or its number is too long to be shown,
or it is a number of repetitions that no double holds. -/
inductive EntryFails (g : Group) (key : Key) (v : Value) : Prop
  | unnamed : number? v = none → key.hasText = false → EntryFails g key v
  | unshown (n : Number) : number? v = some n → isOutside g key n = true →
      key.hasText = false ∨ v.hasText = false → EntryFails g key v
  | repetitions (n : Number) : number? v = some n → isOutside g key n = false →
      g = .thresholds → key.sameAs (.str "tipping_point") = true → TooLarge v → EntryFails g key v

theorem fails_noted {p : Problem} : Fails (noted p) ↔ p.isWritable = false := by
  cases h : p.isWritable <;> simp [noted, h]

/-- The message of a problem that shows two things. -/
theorem fails_noted_pair {p : Problem} {first second : Bool}
    (h : p.isWritable = (first && second)) :
    Fails (noted p) ↔ first = false ∨ second = false := by
  rw [fails_noted, h, Bool.and_eq_false_iff]

theorem entryFails_of_other {g : Group} {key : Key} {v : Value} (hv : number? v = none) :
    EntryFails g key v ↔ key.hasText = false := by
  constructor
  · intro h
    cases h with
    | unnamed _ hkey => exact hkey
    | unshown n hn => cases hv.symm.trans hn
    | repetitions n hn => cases hv.symm.trans hn
  · exact .unnamed hv

theorem entryFails_of_number {g : Group} {key : Key} {v : Value} {n : Number}
    (hv : number? v = some n) :
    EntryFails g key v ↔
      isOutside g key n = true ∧ (key.hasText = false ∨ v.hasText = false) ∨
        isOutside g key n = false ∧ g = .thresholds ∧ key.sameAs (.str "tipping_point") = true ∧
          TooLarge v := by
  constructor
  · intro h
    cases h with
    | unnamed hn => cases hv.symm.trans hn
    | unshown n' hn hout htext =>
      obtain rfl := Option.some.inj (hv.symm.trans hn)
      exact .inl ⟨hout, htext⟩
    | repetitions n' hn hin hg hkey hlarge =>
      obtain rfl := Option.some.inj (hv.symm.trans hn)
      exact .inr ⟨hin, hg, hkey, hlarge⟩
  · intro h
    rcases h with ⟨hout, htext⟩ | ⟨hin, hg, hkey, hlarge⟩
    · exact .unshown n hv hout htext
    · exact .repetitions n hv hin hg hkey hlarge

theorem fails_checkWeight {b : Builtin} {key : Key} {v : Value} :
    Fails (checkWeight b key v) ↔ EntryFails .weights key v := by
  unfold checkWeight
  cases hv : number? v with
  | none => rw [fails_noted, entryFails_of_other hv, Problem.isWritable]
  | some n =>
    rw [entryFails_of_number hv]
    cases hout : n.compare .lt (.int 0) with
    | true => simp [isOutside, hout, fails_noted_pair (p := .negativeWeight b key v) rfl]
    | false => simp [isOutside, hout]

/-- A number that becomes a double can be shown. -/
theorem hasText_of_toDouble {v : Value} {n : Number} {x : Float} (hv : number? v = some n)
    (hx : n.toDouble = .ok x) : v.hasText = true := by
  cases v with
  | int i =>
    obtain rfl := Option.some.inj hv
    cases hi : Double.ofInt? i with
    | none => simp [Number.toDouble, hi] at hx
    | some y => exact Exact.hasText_of_ofInt? hi
  | float y => rfl
  | _ => cases hv

theorem fails_toDouble_iff {v : Value} {n : Number} (hv : number? v = some n) :
    Fails n.toDouble ↔ TooLarge v := by
  refine fails_toDouble ?_ (value_number? hv)
  cases v <;> simp_all [number?, Value.isNumber]

theorem fails_checkThreshold {b : Builtin} {key : Key} {v : Value} :
    Fails (checkThreshold b key v) ↔ EntryFails .thresholds key v := by
  unfold checkThreshold
  cases hv : number? v with
  | none => rw [fails_noted, entryFails_of_other hv, Problem.isWritable]
  | some n =>
    rw [entryFails_of_number hv]
    cases hkey : key.sameAs (.str "tipping_point") with
    | false =>
      cases hout : n.compare .lt (.int 0) || n.compare .gt (.int 1) with
      | true =>
        simp [isOutside, hkey, hout, fails_noted_pair (p := .thresholdOutOfRange b key v) rfl]
      | false => simp [isOutside, hkey, hout]
    | true =>
      obtain rfl := eq_str_of_sameAs hkey
      cases hout : n.compare .lt (.int 1) with
      | true => simp [isOutside, hkey, hout, fails_noted_pair (p := .badTippingPoint b _ v) rfl]
      | false =>
        have hrest : ∀ x, n.toDouble = .ok x →
            ¬ Fails (if Double.isIntegral x then .ok none
              else noted (.badTippingPoint b (.str "tipping_point") v)) := by
          intro x hx
          split
          · exact not_fails_ok _
          · simp [fails_noted, Problem.isWritable, Key.hasText, hasText_of_toDouble hv hx]
        have hconversion := fails_toDouble_iff hv
        simp only [if_true, Bool.false_eq_true, if_false, fails_bind, hconversion, isOutside, hkey,
          hout, false_and, true_and, false_or]
        exact or_iff_left fun h => hrest _ h.choose_spec.1 h.choose_spec.2

theorem fails_checkEach {b : Builtin} {g : Group} {v : Value}
    {check : Builtin → Key → Value → Except Fault (Option Problem)} :
    Fails (checkEach b g check v) ↔ ∃ es, v = .map es ∧ ∃ e ∈ es, Fails (check b e.1 e.2) := by
  unfold checkEach
  cases hgroup : checkGroup b g v with
  | error p =>
    refine iff_of_false (not_fails_ok _) ?_
    rintro ⟨_ | ⟨e, es⟩, rfl, hfails⟩
    · obtain ⟨e, he, -⟩ := hfails
      cases he
    · simp [checkGroup, Value.isTruthy] at hgroup
  | ok es =>
    obtain ⟨rfl, -⟩ := checkGroup_eq_ok hgroup
    simp [fails_bind, fails_mapM]

/-- The value of a heuristic among others. -/
def valueOf (hs : Entries) (b : Builtin) : Value := (hs.get? b.id).getD .null

/-- Only a mapping that is not empty holds another one. -/
theorem map_of_field {v : Value} {name : String} {es : Entries} (h : v.field name = .map es) :
    ∃ fields, v = .map fields ∧ fields ≠ [] := by
  cases v with
  | map fields =>
    refine ⟨fields, rfl, ?_⟩
    rintro rfl
    cases h
  | _ => cases h

theorem isTruthy_map {es : Entries} (h : es ≠ []) : (Value.map es).isTruthy = true := by
  simpa [Value.isTruthy] using h

theorem checkSection_of_map {hs es : Entries} {b : Builtin} (h : valueOf hs b = .map es)
    (hne : es ≠ []) :
    checkSection hs b =
      (checkEach b .weights checkWeight ((Value.map es).field Group.weights.name) >>= fun weights =>
        checkEach b .thresholds checkThreshold ((Value.map es).field Group.thresholds.name) >>=
          fun thresholds => .ok (weights ++ thresholds)) := by
  have hvalue : (hs.get? b.id).getD .null = .map es := h
  simp only [checkSection, hvalue, isTruthy_map hne, Bool.not_true, Bool.false_eq_true, if_false]

theorem checkSection_of_other {hs : Entries} {b : Builtin}
    (h : ∀ es, valueOf hs b = .map es → es = []) : ¬ Fails (checkSection hs b) := by
  simp only [checkSection]
  split
  · exact not_fails_ok _
  · next htruthy =>
    split
    · next es hes =>
      obtain rfl := h es hes
      rw [hes] at htruthy
      exact absurd rfl htruthy
    · exact not_fails_ok _

theorem fails_checkSection {hs : Entries} {b : Builtin} :
    Fails (checkSection hs b) ↔
      ∃ g es, (valueOf hs b).field g.name = .map es ∧ ∃ e ∈ es, EntryFails g e.1 e.2 := by
  by_cases hmap : ∃ es, valueOf hs b = .map es ∧ es ≠ []
  · obtain ⟨es, hes, hne⟩ := hmap
    rw [checkSection_of_map hes hne,
      fails_bind_iff fun _ => fails_bind_iff fun _ => iff_false_intro (not_fails_ok _), or_false,
      fails_checkEach, fails_checkEach, hes]
    simp only [fails_checkWeight, fails_checkThreshold]
    constructor
    · rintro (hweights | hthresholds)
      · exact ⟨.weights, hweights⟩
      · exact ⟨.thresholds, hthresholds⟩
    · rintro ⟨_ | _, hgroup⟩
      · exact .inl hgroup
      · exact .inr hgroup
  · refine iff_of_false (checkSection_of_other fun es hes => ?_) ?_
    · by_contra hne
      exact hmap ⟨es, hes, hne⟩
    · rintro ⟨g, es, hes, -⟩
      exact hmap (map_of_field hes)

/-- A weight that counts as nothing when it is absent. -/
def weightIn (es : Entries) (name : String) : Value := (es.get? name).getD (.int 0)

/-- Two numbers whose sum no double holds, or one of which has to be a double first and is none. -/
inductive SumTooLarge : Number → Number → Prop
  | integers (i j : Int) : Double.ofInt? (i + j) = none → SumTooLarge (.int i) (.int j)
  | first (i : Int) (y : Float) : Double.ofInt? i = none → SumTooLarge (.int i) (.float y)
  | second (x : Float) (j : Int) : Double.ofInt? j = none → SumTooLarge (.float x) (.int j)

theorem sumTooLarge_iff {m n : Number} :
    SumTooLarge m n ↔ match m, n with
      | .int i, .int j => Double.ofInt? (i + j) = none
      | .int i, .float _ => Double.ofInt? i = none
      | .float _, .int j => Double.ofInt? j = none
      | .float _, .float _ => False := by
  constructor
  · intro h
    cases h with
    | integers i j h => exact h
    | first i y h => exact h
    | second x j h => exact h
  · intro h
    cases m with
    | int i =>
      cases n with
      | int j => exact .integers i j h
      | float y => exact .first i y h
    | float x =>
      cases n with
      | int j => exact .second x j h
      | float y => exact h.elim

/-- A sum fails as it is formed or as it is turned into a double. -/
theorem fails_add {m n : Number} {f : Float → Except Fault (List Problem)}
    (hf : ∀ x, ¬ Fails (f x)) :
    Fails (m.add n >>= fun total =>
      match total.number? with
      | some t => t.toDouble >>= f
      | none => .ok 0.0 >>= f) ↔ SumTooLarge m n := by
  rw [sumTooLarge_iff]
  cases m with
  | int i =>
    cases n with
    | int j =>
      cases hsum : Double.ofInt? (i + j) with
      | none => simp [Number.add, Value.number?, Number.toDouble, hsum]
      | some x => simpa [Number.add, Value.number?, Number.toDouble, hsum] using hf x
    | float y =>
      cases hi : Double.ofInt? i with
      | none => simp [Number.add, Number.ofDoubles, Number.toDouble, hi]
      | some x =>
        simpa [Number.add, Number.ofDoubles, Number.toDouble, hi, Value.number?] using hf (x + y)
  | float x =>
    cases n with
    | int j =>
      cases hj : Double.ofInt? j with
      | none => simp [Number.add, Number.ofDoubles, Number.toDouble, hj]
      | some y =>
        simpa [Number.add, Number.ofDoubles, Number.toDouble, hj, Value.number?] using hf (x + y)
    | float y =>
      simpa [Number.add, Number.ofDoubles, Number.toDouble, Value.number?] using hf (x + y)

theorem fails_checkWeightSum {hs : Entries} :
    Fails (checkWeightSum hs) ↔ ∃ es m n, groupOf? hs .backCasting .weights = some es ∧
      number? (weightIn es "end_state_vision") = some m ∧
      number? (weightIn es "current_market_signals") = some n ∧ SumTooLarge m n := by
  unfold checkWeightSum
  cases groupOf? hs .backCasting .weights with
  | none => simp
  | some es =>
    have hweight : ∀ name, (es.get? name).getD (.int 0) = weightIn es name := fun _ => rfl
    simp only [hweight]
    cases hm : number? (weightIn es "end_state_vision") with
    | none => simp [hm]
    | some m =>
      cases hn : number? (weightIn es "current_market_signals") with
      | none => simp [hm, hn]
      | some n =>
        refine (fails_add fun x => not_fails_ok _).trans ?_
        simp [hm, hn]

/-- An integer that is too long to be shown is no ratio. -/
theorem isOutside_of_long {name : String} {v : Value} {n : Number} (hv : number? v = some n)
    (hname : name ≠ "tipping_point") (hlong : v.hasText = false) :
    isOutside .thresholds (.str name) n = true := by
  cases v with
  | int i =>
    obtain rfl := Option.some.inj hv
    have hkey : Key.sameAs (.str name) (.str "tipping_point") = false := by
      simpa [Key.sameAs] using hname
    have hlarge : tenTo Format.longestInteger ≤ i.natAbs := by
      simpa [Value.hasText, Format.hasText] using hlong
    have htwo := Exact.one_lt_tenTo (n := Format.longestInteger) (by decide)
    by_contra hin
    simp only [isOutside, hkey, Bool.false_eq_true, if_false, Bool.or_eq_true, not_or,
      Bool.not_eq_true] at hin
    have hlow := (Exact.not_lt_int (m := .int i) rfl 0).mp hin.1
    have hhigh := (Exact.not_gt_int (m := .int i) rfl 1).mp hin.2
    have h0 : 0 ≤ i := by exact_mod_cast hlow
    have h1 : i ≤ 1 := by exact_mod_cast hhigh
    omega
  | float x => cases hlong
  | _ => cases hv

/-- The rule between two thresholds fails only at an entry that the check of the thresholds has
failed at before. -/
theorem entry_of_fails_checkOrder {hs : Entries} {b : Builtin} {first second : String}
    {broken : Comparison} {problem : Value → Value → Problem}
    (hproblem : ∀ v w, (problem v w).isWritable = (v.hasText && w.hasText))
    (hfirst : first ≠ "tipping_point") (hsecond : second ≠ "tipping_point")
    (h : Fails (checkOrder hs b first second broken problem)) :
    ∃ es, groupOf? hs b .thresholds = some es ∧ ∃ e ∈ es, EntryFails .thresholds e.1 e.2 := by
  have hentry : ∀ (es : Entries) name n, name ≠ "tipping_point" →
      number? ((es.get? name).getD .null) = some n →
      ((es.get? name).getD .null).hasText = false →
      ∃ e ∈ es, EntryFails .thresholds e.1 e.2 := by
    intro es name n hname hn hlong
    cases hget : es.get? name with
    | none => simp [hget, number?] at hn
    | some v =>
      rw [hget] at hn hlong
      exact ⟨(.str name, v), mem_of_get? hget,
        .unshown n hn (isOutside_of_long hn hname hlong) (.inr hlong)⟩
  unfold checkOrder at h
  cases hes : groupOf? hs b .thresholds with
  | none => simp [hes] at h
  | some es =>
    simp only [hes] at h
    refine ⟨es, rfl, ?_⟩
    split at h
    · next m n hm hn =>
      split at h
      · rcases (fails_noted_pair (hproblem _ _)).mp h with hlong | hlong
        · exact hentry es first m hfirst hm hlong
        · exact hentry es second n hsecond hn hlong
      · cases h.choose_spec
    · cases h.choose_spec

/-- A document that the check does not survive. -/
inductive Uncheckable (config : Value) : Prop
  | entry {b : Builtin} {g : Group} {es : Entries} {e : Key × Value} :
      parameters config b g = .map es → e ∈ es → EntryFails g e.1 e.2 → Uncheckable config
  | sum {es : Entries} {m n : Number} : parameters config .backCasting .weights = .map es →
      number? (weightIn es "end_state_vision") = some m →
      number? (weightIn es "current_market_signals") = some n → SumTooLarge m n →
      Uncheckable config

theorem groupOf?_eq_some {hs es : Entries} {b : Builtin} {g : Group} :
    groupOf? hs b g = some es ↔ (valueOf hs b).field g.name = .map es := by
  unfold groupOf?
  change Value.entries? ((valueOf hs b).field g.name) = some es ↔ _
  cases (valueOf hs b).field g.name <;> simp [Value.entries?]

/-- The checks of the sections and of what goes beyond them. -/
theorem fails_check_of_heuristics {config : Value} {hs : Entries}
    (h : config.field "heuristics" = .map hs) (hne : hs ≠ []) :
    Fails (check config) ↔ (∃ b, Fails (checkSection hs b)) ∨ Fails (checkSpecifics hs) := by
  obtain ⟨c, rfl, hc⟩ := map_of_field h
  have hheuristics : (Entries.get? c "heuristics").getD .null = .map hs := h
  have hempty : c.isEmpty = false := by simpa using hc
  simp only [check, hempty, Bool.false_eq_true, if_false, checkEntries, hheuristics,
    isTruthy_map hne, Bool.not_true]
  rw [fails_bind_iff fun _ => fails_bind_iff fun _ => iff_false_intro (not_fails_ok _), or_false,
    fails_mapM]
  simp [Builtin.mem_all]

theorem not_fails_check {config : Value}
    (h : ∀ hs, config.field "heuristics" = .map hs → hs = []) : ¬ Fails (check config) := by
  cases config with
  | map c =>
    simp only [check]
    split
    · exact not_fails_ok _
    · simp only [checkEntries]
      split
      · exact not_fails_ok _
      · next htruthy =>
        split
        · next hs hhs =>
          obtain rfl := h hs hhs
          rw [hhs] at htruthy
          exact absurd rfl htruthy
        · exact not_fails_ok _
  | _ => exact not_fails_ok _

theorem fails_checkSpecifics {hs : Entries} (h : Fails (checkSpecifics hs)) :
    Fails (checkWeightSum hs) ∨ ∃ b es, groupOf? hs b .thresholds = some es ∧
      ∃ e ∈ es, EntryFails .thresholds e.1 e.2 := by
  unfold checkSpecifics at h
  rw [fails_bind_iff fun _ => fails_bind_iff fun _ => fails_bind_iff fun _ =>
    iff_false_intro (not_fails_ok _), or_false] at h
  rcases h with hsum | hreview | hstandardization
  · exact .inl hsum
  · exact .inr ⟨_, entry_of_fails_checkOrder (fun _ _ => rfl) (by decide) (by decide) hreview⟩
  · exact .inr
      ⟨_, entry_of_fails_checkOrder (fun _ _ => rfl) (by decide) (by decide) hstandardization⟩

/-- The check fails at exactly the documents that are not checkable. -/
theorem fails_check {config : Value} : Fails (check config) ↔ Uncheckable config := by
  by_cases hmap : ∃ hs, config.field "heuristics" = .map hs ∧ hs ≠ []
  · obtain ⟨hs, hhs, hne⟩ := hmap
    have hparameters : ∀ b g, parameters config b g = (valueOf hs b).field g.name := by
      intro b g
      rw [parameters, hhs]
      rfl
    rw [fails_check_of_heuristics hhs hne]
    constructor
    · intro h
      rcases h with ⟨b, hb⟩ | hspecifics
      · obtain ⟨g, es, hes, e, he, hfails⟩ := fails_checkSection.mp hb
        exact .entry ((hparameters b g).trans hes) he hfails
      · rcases fails_checkSpecifics hspecifics with hsum | ⟨b, es, hes, e, he, hfails⟩
        · obtain ⟨es, m, n, hes, hm, hn, hlarge⟩ := fails_checkWeightSum.mp hsum
          exact .sum ((hparameters _ _).trans (groupOf?_eq_some.mp hes)) hm hn hlarge
        · exact .entry ((hparameters b _).trans (groupOf?_eq_some.mp hes)) he hfails
    · intro h
      cases h with
      | @entry b g es e hes he hfails =>
        exact .inl ⟨b, fails_checkSection.mpr ⟨g, es, (hparameters b g).symm.trans hes, e, he,
          hfails⟩⟩
      | @sum es m n hes hm hn hlarge =>
        have hsum : Fails (checkWeightSum hs) := fails_checkWeightSum.mpr
          ⟨es, m, n, groupOf?_eq_some.mpr ((hparameters _ _).symm.trans hes), hm, hn, hlarge⟩
        exact .inr (fails_bind.mpr (.inl hsum))
  · have hnone : ∀ b g es, parameters config b g ≠ .map es := by
      intro b g es hes
      obtain ⟨_, hb, -⟩ := map_of_field hes
      obtain ⟨hs, hhs, hne⟩ := map_of_field hb
      exact hmap ⟨hs, hhs, hne⟩
    refine iff_of_false (not_fails_check fun hs hhs => ?_) ?_
    · by_contra hne
      exact hmap ⟨hs, hhs, hne⟩
    · intro h
      cases h with
      | entry hes => exact hnone _ _ _ hes
      | sum hes => exact hnone _ _ _ hes

/-- A value in which names stand for the keys and every integer is small. -/
inductive Plain : Value → Prop
  | null : Plain .null
  | bool (b : Bool) : Plain (.bool b)
  | int (i : Int) : 0 ≤ i → i ≤ 2 → Plain (.int i)
  | float (x : Float) : Plain (.float x)
  | str (s : String) : Plain (.str s)
  | map (es : Entries) : (∀ e ∈ es, ∃ s, e.1 = .str s) → (∀ e ∈ es, Plain e.2) → Plain (.map es)

theorem plain_map {es : Entries} :
    Plain (.map es) ↔ ∀ e ∈ es, (∃ s, e.1 = .str s) ∧ Plain e.2 := by
  constructor
  · intro h
    cases h with
    | map es hkeys hvalues => exact fun e he => ⟨hkeys e he, hvalues e he⟩
  · intro h
    exact .map es (fun e he => (h e he).1) fun e he => (h e he).2

theorem plain_ofNames {pairs : List (String × Value)} :
    Plain (Value.ofNames pairs) ↔ ∀ p ∈ pairs, Plain p.2 := by
  rw [Value.ofNames, Entries.ofNames, plain_map, List.forall_mem_map]
  simp

theorem plain_default : Plain (.map defaultEntries) := by
  have htwo : Plain (.int 2) := .int 2 (by decide) (by decide)
  have hsection : ∀ b, Plain (defaultSection b) := by
    intro b
    cases b <;> simp [defaultSection, defaultWeights, defaultThresholds, plain_ofNames, Plain.float,
      htwo]
  have hvalidation : Plain (.map defaultValidation) := by
    refine plain_ofNames.mpr ?_
    simp [Plain.bool, Plain.float]
  refine plain_ofNames.mpr ?_
  simp [plain_ofNames, Plain.str, hsection, hvalidation]

theorem plain_get? {es : Entries} {name : String} {v : Value} (h : Plain (.map es))
    (hv : es.get? name = some v) : Plain v :=
  (plain_map.mp h _ (mem_of_get? hv)).2

theorem plain_field {v : Value} (h : Plain v) (name : String) : Plain (v.field name) := by
  cases v with
  | map es =>
    change Plain ((Entries.get? es name).getD .null)
    cases hv : Entries.get? es name with
    | none => exact .null
    | some w => exact plain_get? h hv
  | _ => exact .null

theorem plain_set {es : Entries} {v : Value} (h : Plain (.map es)) (name : String) (hv : Plain v) :
    Plain (.map (es.set name v)) := by
  rw [plain_map] at h ⊢
  unfold Entries.set
  induction es with
  | nil => simp [Entries.put, hv]
  | cons e rest ih =>
    obtain ⟨hfirst, hrest⟩ := List.forall_mem_cons.mp h
    rw [Entries.put]
    split
    · exact List.forall_mem_cons.mpr ⟨⟨hfirst.1, hv⟩, hrest⟩
    · exact List.forall_mem_cons.mpr ⟨hfirst, ih hrest⟩

theorem plain_setAt {es : Entries} {v : Value} (h : Plain (.map es)) (path : List String)
    (name : String) (hv : Plain v) : Plain (.map (setAt es path name v)) := by
  induction path generalizing es with
  | nil => exact plain_set h name hv
  | cons step rest ih =>
    refine plain_set h step (ih ?_)
    split
    · next child hchild => exact plain_get? h hchild
    · exact plain_map.mpr nofun

theorem plain_coerce (raw : String) : Plain (coerce raw) := by
  unfold coerce
  split
  · exact .bool true
  · exact .bool false
  · split
    · split
      · exact .float _
      · exact .str raw
    · exact .str raw

/-- Variables put no integer into a document. -/
theorem plain_applyAll {es : Entries} (h : Plain (.map es)) (env : Environment) :
    Plain (.map (applyAll es (present env))) := by
  have hvalues : ∀ p ∈ present env, Plain p.2 := by
    intro p hp
    obtain ⟨o, -, hp⟩ := List.mem_filterMap.mp hp
    obtain ⟨raw, -, rfl⟩ := Option.map_eq_some_iff.mp hp
    exact plain_coerce raw
  unfold applyAll
  generalize present env = values at hvalues
  induction values generalizing es with
  | nil => exact h
  | cons p rest ih =>
    obtain ⟨hfirst, hrest⟩ := List.forall_mem_cons.mp hvalues
    exact ih (plain_setAt h p.1.path p.1.name hfirst) hrest

theorem ofInt?_ne_none {i : ℤ} (hlow : 0 ≤ i) (hhigh : i ≤ 4) : Double.ofInt? i ≠ none := by
  rw [← Option.isSome_iff_ne_none]
  interval_cases i <;> decide +kernel

theorem not_tooLarge_of_plain {v : Value} (hv : Plain v) : ¬ TooLarge v := by
  intro h
  obtain ⟨i, rfl, hi⟩ := h
  cases hv with
  | int i hlow hhigh => exact ofInt?_ne_none hlow (by omega) hi

theorem hasText_of_plain {v : Value} {n : Number} (hv : Plain v) (hn : number? v = some n) :
    v.hasText = true := by
  cases v with
  | int i =>
    have hlarge := not_tooLarge_of_plain hv
    obtain ⟨x, hx⟩ := Option.ne_none_iff_exists'.mp fun hi => hlarge ⟨i, rfl, hi⟩
    exact Exact.hasText_of_ofInt? hx
  | float x => rfl
  | _ => cases hn

theorem not_entryFails_of_plain {g : Group} {s : String} {v : Value} (hv : Plain v) :
    ¬ EntryFails g (.str s) v := by
  intro h
  cases h with
  | unnamed _ hkey => cases hkey
  | unshown n hn _ htext =>
    rcases htext with hkey | hvalue
    · cases hkey
    · cases (hasText_of_plain hv hn).symm.trans hvalue
  | repetitions n _ _ _ _ hlarge => exact not_tooLarge_of_plain hv hlarge

theorem between_of_plain {v : Value} {i : Int} (hv : Plain v) (hi : number? v = some (.int i)) :
    0 ≤ i ∧ i ≤ 2 := by
  cases hv with
  | int j hlow hhigh =>
    obtain rfl : j = i := by simpa [number?] using hi
    exact ⟨hlow, hhigh⟩
  | _ => cases hi

theorem not_sumTooLarge_of_plain {v w : Value} {m n : Number} (hv : Plain v) (hw : Plain w)
    (hm : number? v = some m) (hn : number? w = some n) : ¬ SumTooLarge m n := by
  intro h
  cases h with
  | integers i j hsum =>
    obtain ⟨hlow, hhigh⟩ := between_of_plain hv hm
    obtain ⟨hlow', hhigh'⟩ := between_of_plain hw hn
    exact ofInt?_ne_none (by omega) (by omega) hsum
  | first i y hi =>
    obtain ⟨hlow, hhigh⟩ := between_of_plain hv hm
    exact ofInt?_ne_none hlow (by omega) hi
  | second x j hj =>
    obtain ⟨hlow, hhigh⟩ := between_of_plain hw hn
    exact ofInt?_ne_none hlow (by omega) hj

theorem plain_weightIn {es : Entries} (h : Plain (.map es)) (name : String) :
    Plain (weightIn es name) := by
  unfold weightIn
  cases hv : es.get? name with
  | none => exact .int 0 (by decide) (by decide)
  | some v => exact plain_get? h hv

theorem not_uncheckable_of_plain {config : Value} (h : Plain config) : ¬ Uncheckable config := by
  have hgroup : ∀ b g, Plain (parameters config b g) := fun b g =>
    plain_field (plain_field (plain_field h _) _) _
  intro hun
  cases hun with
  | @entry b g es e hes he hfails =>
    have hplain : Plain (.map es) := hes ▸ hgroup b g
    obtain ⟨⟨s, hs⟩, hvalue⟩ := plain_map.mp hplain e he
    rw [hs] at hfails
    exact not_entryFails_of_plain hvalue hfails
  | @sum es m n hes hm hn hlarge =>
    have hplain : Plain (.map es) := hes ▸ hgroup .backCasting .weights
    exact not_sumTooLarge_of_plain (plain_weightIn hplain _) (plain_weightIn hplain _) hm hn hlarge

/-- A candidate is chosen or replaced by the defaults as soon as its check comes to an end. -/
theorem resolve_answers_iff {file : Value} {env : Environment} {config : Entries} {source : Source}
    (h : candidate file env = .ok (some (.map config, source))) :
    (∃ r, (resolve file env).value = .ok r) ↔ ¬ Uncheckable (.map config) := by
  rw [← fails_check]
  unfold resolve
  rw [h]
  cases hcheck : check (.map config) with
  | error f => simp [hcheck, Report.value_pure]
  | ok problems =>
    cases problems with
    | nil => simp [hcheck, Report.value_bind, Report.value_pure]
    | cons p ps => simp [hcheck, Report.value_bind, Report.value_pure]

theorem candidate_map (d : Entries) (env : Environment) :
    candidate (.map d) env = .ok (some (.map (overlaid d env), sourceIn env)) := by
  cases hp : present env <;>
    simp [candidate, overlay, overlaid, sourceIn, hp, Value.isNull]

theorem resolve_null_answers (env : Environment) : ∃ r, (resolve .null env).value = .ok r := by
  cases hp : present env with
  | nil =>
    have hcandidate : candidate .null env = .ok none := by
      simp [candidate, overlay, hp, Value.isNull]
    unfold resolve
    rw [hcandidate]
    exact ⟨_, rfl⟩
  | cons p ps =>
    have hcandidate : candidate .null env =
        .ok (some (.map (applyAll defaultEntries (present env)), .environmentAndDefaults)) := by
      simp [candidate, overlay, hp, Value.isNull, Value.isTruthy]
    exact (resolve_answers_iff hcandidate).mpr
      (not_uncheckable_of_plain (plain_applyAll plain_default env))

/-- The check of a document ends with a report exactly when no entry ends it and no sum of weights
is too large. Without a document a configuration is always chosen; with one, exactly when the check
of what it comes to in the environment ends. -/
theorem check_answers_iff (config : Value) (document : Entries) (env : Environment) :
    ((∃ problems, check config = .ok problems) ↔ ¬ Uncheckable config) ∧
      (∃ r, (resolve .null env).value = .ok r) ∧
      ((∃ r, (resolve (.map document) env).value = .ok r) ↔
        ¬ Uncheckable (.map (overlaid document env))) := by
  refine ⟨?_, resolve_null_answers env, resolve_answers_iff (candidate_map document env)⟩
  rw [exists_ok_iff, fails_check]

/-- The default document with another number of repetitions. -/
def repeating (n : Int) : Entries :=
  setAt defaultEntries ["heuristics", Builtin.automationCheck.id, "thresholds"] "tipping_point"
    (.int n)

/-- A number of repetitions that no double holds ends the check, and no configuration is chosen. -/
theorem repetitions_uncheckable :
    Fails (check (.map (repeating (twoTo 1024)))) ∧
      Fails (resolve (.map (repeating (twoTo 1024))) []).value :=
  ⟨isNone_toOption_iff.mp (by decide +kernel), isNone_toOption_iff.mp (by decide +kernel)⟩

end Config

end DecisionGate
