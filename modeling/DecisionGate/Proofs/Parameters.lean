import DecisionGate.Heuristic.Template
import DecisionGate.Proofs.Acceptance
import DecisionGate.Proofs.Calculation

/-!
# The parameters that count

A compiled function takes each parameter from its section, or from the defaults when it is absent.
Under an accepted configuration all weights that count are numbers not below zero, though they may
be NaN, and all thresholds that count can be calculated with.
-/
namespace DecisionGate

namespace Builtin

/-- The weights that a section comes to, the defaults among them. -/
def weights (b : Builtin) (config : Entries) : List Value :=
  (Config.defaultWeights b).map fun p => parameter config b .weights p.1

end Builtin

namespace Config

theorem sectionOf_field (config : Entries) (b : Builtin) (g : Group) :
    ((sectionOf config b.id).get? g.name).getD .null = parameters (.map config) b g := by
  have hheuristics : (Value.map config).field "heuristics" =
      (config.get? "heuristics").getD .null := rfl
  rw [parameters, hheuristics, sectionOf]
  cases ((config.get? "heuristics").getD .null).field b.id <;> rfl

/-- The parameter that stands in for an absent one. -/
def default (b : Builtin) (g : Group) (key : String) : Value :=
  (Entries.get? (Entries.ofNames (defaultGroup b g)) key).getD .null

/-- A parameter was configured, or is the default. -/
theorem parameter_cases {config : Entries} {b : Builtin} {g : Group} {es : Entries}
    (hes : parameters (.map config) b g = .map es) (key : String) :
    es.get? key = some (parameter (sectionOf config b.id) b g key) ∨
      parameter (sectionOf config b.id) b g key = default b g key := by
  have hfield : (Value.map es).field key = (es.get? key).getD .null := rfl
  rw [parameter, sectionOf_field, hes, hfield]
  cases hv : es.get? key with
  | none => exact .inr rfl
  | some v => cases v <;> first | exact .inr rfl | exact .inl rfl

theorem parameter_of_get? {config : Entries} {b : Builtin} {g : Group} {es : Entries}
    {key : String} {v : Value} (hes : parameters (.map config) b g = .map es)
    (hv : es.get? key = some v) (hnull : v ≠ .null) :
    parameter (sectionOf config b.id) b g key = v := by
  have hfield : (Value.map es).field key = v := by
    rw [Value.field, hv, Option.getD_some]
  rw [parameter, sectionOf_field, hes, hfield]
  cases v <;> first | exact absurd rfl hnull | rfl

/-- A number that is not below zero; NaN is none. -/
def IsNotNegative (v : Value) : Prop :=
  ∃ n, number? v = some n ∧ n.compare .lt (.int 0) = false

theorem isSummand_of_isNotNegative {v : Value} (h : IsNotNegative v) : v.IsSummand := by
  obtain ⟨n, hn, hlt⟩ := h
  cases v with
  | int i =>
    obtain rfl := Option.some.inj hn
    have hle := (Exact.not_lt_int (m := .int i) rfl 0).mp hlt
    exact .inl ⟨i, rfl, by exact_mod_cast hle⟩
  | float x => exact .inr ⟨x, rfl⟩
  | _ => cases hn

theorem nonneg_of_isNotNegative {v : Value} {q : ℚ} (h : IsNotNegative v)
    (hq : quantity? v = some (.rational q)) : 0 ≤ q := by
  obtain ⟨n, hn, hlt⟩ := h
  obtain ⟨m, hm, hmq⟩ := number?_of_quantity? hq
  obtain rfl := Option.some.inj (hn.symm.trans hm)
  simpa using (Exact.not_lt_int hmq 0).mp hlt

theorem value_number? {v : Value} {n : Number} (h : number? v = some n) : v.number? = some n := by
  cases v <;> first | exact h | cases h

/-- A threshold that is let through has a double. -/
theorem isConvertible_of_check {b : Builtin} {key : Key} {v : Value}
    (h : checkThreshold b key v = .ok none) : v.IsConvertible := by
  obtain ⟨n, hn, hcase⟩ := checkThreshold_eq_none h
  split at hcase
  · obtain ⟨-, x, hx, -⟩ := hcase
    exact ⟨n, x, value_number? hn, hx⟩
  · cases n with
    | float x => exact ⟨.float x, x, value_number? hn, rfl⟩
    | int i =>
      have hlow := (Exact.not_lt_int (m := .int i) rfl 0).mp hcase.1
      have hhigh := (Exact.not_gt_int (m := .int i) rfl 1).mp hcase.2
      have hint : (i = 0 ∨ i = 1) := by
        have h0 : 0 ≤ i := by exact_mod_cast hlow
        have h1 : i ≤ 1 := by exact_mod_cast hhigh
        omega
      have hsome : (Double.ofInt? i).isSome = true := by
        rcases hint with rfl | rfl <;> decide +kernel
      obtain ⟨x, hx⟩ := Option.isSome_iff_exists.mp hsome
      exact ⟨.int i, x, value_number? hn, by simp [Number.toDouble, hx]⟩

theorem default_weight {b : Builtin} {p : String × Value} (hp : p ∈ defaultWeights b) :
    IsNotNegative (default b .weights p.1) := by
  have hall : (defaultWeights b).all (fun p =>
      (number? (default b .weights p.1)).any fun n => !n.compare .lt (.int 0)) = true := by
    cases b <;> decide +kernel
  obtain ⟨n, hn, hlt⟩ := (Option.any_eq_true _ _).mp (List.all_eq_true.mp hall p hp)
  exact ⟨n, hn, by simpa using hlt⟩

theorem default_threshold {b : Builtin} {p : String × Value} (hp : p ∈ defaultThresholds b) :
    (default b .thresholds p.1).IsConvertible := by
  have hall : (defaultThresholds b).all (fun p =>
      ((default b .thresholds p.1).number?).any fun n => n.toDouble.toOption.isSome) = true := by
    cases b <;> decide +kernel
  obtain ⟨n, hn, hsome⟩ := (Option.any_eq_true _ _).mp (List.all_eq_true.mp hall p hp)
  obtain ⟨x, hx⟩ := isSome_toOption_iff.mp hsome
  exact ⟨n, x, hn, hx⟩

section
variable {config hs : Entries} (h : Accepts (.map config) hs)
include h

/-- The weights of an accepted document, the defaults among them, are numbers not below zero. -/
theorem Accepts.effective_weight {b : Builtin} {w : Value}
    (hw : w ∈ b.weights (sectionOf config b.id)) : IsNotNegative w := by
  obtain ⟨p, hp, rfl⟩ := List.mem_map.mp hw
  obtain ⟨es, hes, -, heach⟩ := h.weights b
  rcases parameter_cases hes p.1 with hconfigured | habsent
  · exact checkWeight_eq_none (heach _ (mem_of_get? hconfigured))
  · rw [habsent]
    exact default_weight hp

/-- A weight that is configured is the one that counts. -/
theorem Accepts.weight_parameter {b : Builtin} {es : Entries} {key : String} {v : Value}
    (hes : parameters (.map config) b .weights = .map es) (hv : es.get? key = some v) :
    parameter (sectionOf config b.id) b .weights key = v := by
  apply parameter_of_get? hes hv
  obtain ⟨n, hn, -⟩ := checkWeight_eq_none (h.checkWeight hes (mem_of_get? hv))
  rintro rfl
  cases hn

theorem Accepts.effective_threshold {b : Builtin} {p : String × Value}
    (hp : p ∈ defaultThresholds b) :
    (parameter (sectionOf config b.id) b .thresholds p.1).IsConvertible := by
  obtain ⟨es, hes, -, heach⟩ := h.thresholds b
  rcases parameter_cases hes p.1 with hconfigured | habsent
  · exact isConvertible_of_check (heach _ (mem_of_get? hconfigured))
  · rw [habsent]
    exact default_threshold hp

end

end Config

end DecisionGate
