import DecisionGate.Heuristic.StrictInput
import DecisionGate.Heuristic.Template
import DecisionGate.Proofs.Tolerance

/-!
# Two readings of a context

A context can be read strictly, which gives an input under the canonical names, or leniently, which
gives the numbers that a heuristic counts with. The two share no more than the table of names. Still
the lenient reading lets every context through that the strict one accepts, it lets the strict input
through as well, and it finds the same numbers in both: canonical names lead to themselves, a number
is already the double that it becomes, and what may be absent has the value that absence comes to.
-/
namespace DecisionGate

theorem Exact.float_le_iff (x y : Float) :
    x ≤ y ↔ (ofDouble x).compare (ofDouble y) = some .lt ∨
      (ofDouble x).compare (ofDouble y) = some .eq := by
  have hmodel : x ≤ y ↔ (x.toModel.unpack.le y.toModel.unpack) = true := decide_eq_true_iff
  have hle : x.toModel.unpack.le y.toModel.unpack =
      ((ofDouble x).compare (ofDouble y)).any Ordering.isLE := by
    rw [← float_compare]
    rfl
  rw [hmodel, hle]
  cases (ofDouble x).compare (ofDouble y) with
  | none => simp
  | some o => cases o <;> simp

theorem Exact.compare_eq_none_iff {a b : Exact} : a.compare b = none ↔ a = .nan ∨ b = .nan := by
  cases a <;> cases b <;> simp [Exact.compare]

/-- What is not less is at least as great, unless one of the two is NaN. -/
theorem Exact.float_le_iff_not_lt (x y : Float) :
    y ≤ x ↔ ¬ x < y ∧ Double.isNaN x = false ∧ Double.isNaN y = false := by
  have hnan := compare_eq_none_iff (a := ofDouble x) (b := ofDouble y)
  rw [← isNaN_iff, ← isNaN_iff] at hnan
  rw [float_le_iff, float_lt_iff, ← compare_swap]
  cases h : (ofDouble x).compare (ofDouble y) with
  | none =>
    rcases hnan.mp h with hx | hy
    · simp [hx]
    · simp [hy]
  | some o =>
    have hneither : ¬ (Double.isNaN x = true ∨ Double.isNaN y = true) := by simp [← hnan, h]
    cases o <;> simp_all

namespace Entries

theorem get?_cons (k : String) (v : Value) (es : Entries) (name : String) :
    Entries.get? ((.str k, v) :: es) name = if k = name then some v else es.get? name := by
  by_cases h : k = name <;> simp [get?, find?, Key.sameAs, h]

theorem get?_ofNames_of_notMem {pairs : List (String × Value)} {name : String}
    (h : name ∉ pairs.map Prod.fst) : (ofNames pairs).get? name = none := by
  induction pairs with
  | nil => rfl
  | cons p pairs ih =>
    simp only [List.map_cons, List.mem_cons, not_or] at h
    have hcons : ofNames (p :: pairs) = (.str p.1, p.2) :: ofNames pairs := rfl
    rw [hcons, get?_cons, if_neg (Ne.symm h.1), ih h.2]

theorem get?_ofNames_of_mem {pairs : List (String × Value)} {p : String × Value}
    (hnodup : (pairs.map Prod.fst).Nodup) (hp : p ∈ pairs) :
    (ofNames pairs).get? p.1 = some p.2 := by
  induction pairs with
  | nil => cases hp
  | cons q pairs ih =>
    have hcons : ofNames (q :: pairs) = (.str q.1, q.2) :: ofNames pairs := rfl
    obtain ⟨hq, hrest⟩ := List.nodup_cons.mp hnodup
    rw [hcons, get?_cons]
    rcases List.mem_cons.mp hp with rfl | hp
    · rw [if_pos rfl]
    · have hne : q.1 ≠ p.1 := fun heq => hq (heq ▸ List.mem_map_of_mem hp)
      rw [if_neg hne, ih hrest hp]

/-- Entries without their nulls. -/
theorem get?_filter_isNull {pairs : List (String × Value)} (hnodup : (pairs.map Prod.fst).Nodup)
    (name : String) :
    Entries.get? ((ofNames pairs).filter fun e => !e.2.isNull) name =
      ((ofNames pairs).get? name).filter fun v => !v.isNull := by
  induction pairs with
  | nil => rfl
  | cons p pairs ih =>
    have hcons : ofNames (p :: pairs) = (.str p.1, p.2) :: ofNames pairs := rfl
    obtain ⟨hp, hrest⟩ := List.nodup_cons.mp hnodup
    have ih := ih hrest
    rw [hcons, get?_cons]
    by_cases hnull : p.2.isNull = true
    · rw [List.filter_cons_of_neg (by simp [hnull]), ih]
      split
      · next heq =>
        rw [get?_ofNames_of_notMem (heq ▸ hp)]
        simp [Option.filter, hnull]
      · rfl
    · rw [List.filter_cons_of_pos (by simp [hnull]), get?_cons, ih]
      split
      · simp [Option.filter, hnull]
      · rfl

end Entries

/-- Every canonical name is a path to its own field, and begins no other path. -/
structure Stable (aliases : List Alias) : Prop where
  distinct : (aliases.map Alias.field).Nodup
  direct : ∀ a ∈ aliases, [a.field] ∈ a.paths
  apart : ∀ a ∈ aliases, ∀ path ∈ a.paths, path ≠ [a.field] →
    ∃ name rest, path = name :: rest ∧ name ∉ aliases.map Alias.field

theorem stable_aliases (b : Builtin) : Stable b.aliases where
  distinct := by cases b <;> decide
  direct := by cases b <;> decide
  apart := by
    have hall : b.aliases.all (fun a => a.paths.all fun path => path = [a.field] ||
        path.head?.any fun name => !(b.aliases.map Alias.field).contains name) = true := by
      cases b <;> decide
    intro a ha path hpath hne
    have hpath := List.all_eq_true.mp (List.all_eq_true.mp hall a ha) path hpath
    cases path with
    | nil => simp at hpath
    | cons name rest => exact ⟨name, rest, rfl, by simpa [hne] using hpath⟩

theorem Value.at_null (path : List String) : Value.null.at path = .null := by
  induction path with
  | nil => rfl
  | cons name rest ih => exact ih

/-- Paths that lead to one value or to nothing resolve to the value. -/
theorem Alias.resolve_eq {a : Alias} {context v : Value}
    (hall : ∀ path ∈ a.paths, context.at path = v ∨ context.at path = .null)
    (hsome : ∃ path ∈ a.paths, context.at path = v) : a.resolve context = v := by
  unfold Alias.resolve
  cases hfind : (a.paths.map context.at).find? fun w => !w.isNull with
  | some w =>
    obtain ⟨path, hpath, rfl⟩ := List.mem_map.mp (List.mem_of_find?_eq_some hfind)
    have hw := List.find?_some hfind
    rcases hall path hpath with heq | hnull
    · exact heq
    · rw [hnull] at hw
      cases hw
  | none =>
    obtain ⟨path, hpath, rfl⟩ := hsome
    have hnull := List.find?_eq_none.mp hfind _ (List.mem_map_of_mem hpath)
    cases hv : context.at path <;> simp [hv, Value.isNull] at hnull
    rfl

theorem canonicalField_eq_resolve {aliases : List Alias} (h : Stable aliases) {a : Alias}
    (ha : a ∈ aliases) (context : Value) :
    Input.canonicalField aliases context a.field = a.resolve context := by
  have hmem : (a.field, a.resolve context) ∈ aliases.map fun a => (a.field, a.resolve context) :=
    List.mem_map_of_mem ha
  have hdistinct : ((aliases.map fun a => (a.field, a.resolve context)).map Prod.fst).Nodup := by
    rw [List.map_map]
    exact h.distinct
  rw [Input.canonicalField, canonical, Entries.get?_ofNames_of_mem hdistinct hmem,
    Option.getD_some]

/-- A path of an alias has a first step. -/
theorem Stable.exists_cons {aliases : List Alias} (h : Stable aliases) {a : Alias}
    (ha : a ∈ aliases) {path : List String} (hpath : path ∈ a.paths) :
    ∃ name rest, path = name :: rest := by
  by_cases heq : path = [a.field]
  · exact ⟨a.field, [], heq⟩
  · obtain ⟨name, rest, hcons, -⟩ := h.apart a ha path hpath heq
    exact ⟨name, rest, hcons⟩

/-- What has no fields has no canonical ones. -/
theorem canonicalField_of_no_field {aliases : List Alias} (h : Stable aliases) {a : Alias}
    (ha : a ∈ aliases) {context : Value} (hnone : ∀ name, context.field name = .null) :
    Input.canonicalField aliases context a.field = .null := by
  have hat (path : List String) (hpath : path ∈ a.paths) : context.at path = .null := by
    obtain ⟨name, rest, rfl⟩ := h.exists_cons ha hpath
    show (context.field name).at rest = .null
    rw [hnone, Value.at_null]
  rw [canonicalField_eq_resolve h ha]
  exact Alias.resolve_eq (fun path hpath => .inl (hat path hpath))
    ⟨_, h.direct a ha, hat _ (h.direct a ha)⟩

/-- Values under the canonical names are canonical already. -/
theorem canonicalField_ofNames {aliases : List Alias} (h : Stable aliases)
    {pairs : List (String × Value)} (hpairs : pairs.map Prod.fst = aliases.map Alias.field)
    {p : String × Value} (hp : p ∈ pairs) :
    Input.canonicalField aliases (Value.ofNames pairs) p.1 = p.2 := by
  have hnodup : (pairs.map Prod.fst).Nodup := hpairs ▸ h.distinct
  have hmem : p.1 ∈ aliases.map Alias.field := hpairs ▸ List.mem_map_of_mem hp
  obtain ⟨a, ha, hfield⟩ := List.mem_map.mp hmem
  have hat : (Value.ofNames pairs).at [a.field] = p.2 := by
    show ((Entries.ofNames pairs).get? a.field).getD .null = p.2
    rw [hfield, Entries.get?_ofNames_of_mem hnodup hp, Option.getD_some]
  have hresolve : a.resolve (Value.ofNames pairs) = p.2 := by
    apply Alias.resolve_eq
    · intro path hpath
      by_cases heq : path = [a.field]
      · exact .inl (heq ▸ hat)
      · right
        obtain ⟨name, rest, rfl, hname⟩ := h.apart a ha path hpath heq
        have habsent : (Value.ofNames pairs).field name = .null := by
          show ((Entries.ofNames pairs).get? name).getD .null = .null
          rw [Entries.get?_ofNames_of_notMem (hpairs ▸ hname), Option.getD_none]
        show ((Value.ofNames pairs).field name).at rest = .null
        rw [habsent, Value.at_null]
    · exact ⟨[a.field], h.direct a ha, hat⟩
  rw [← hfield, canonicalField_eq_resolve h ha, hresolve]

namespace StrictInput

/-- What a value becomes in a field of the strict input. -/
inductive Becomes : Form → Value → Value → Prop
  | number {r : Range} {v : Value} {n : Number} {x : Float} : Config.number? v = some n →
      n.toDouble = .ok x → r.broken? x = none → Becomes (.number r) v (.float x)
  | flag (b : Bool) : Becomes .guardrails (.bool b) (.bool b)
  | list (xs : List Value) : Becomes .guardrails (.list xs) (.list xs)

theorem becomes_of_check {form : Form} {v w : Value} (h : form.check v = .ok w) :
    Becomes form v w := by
  cases form with
  | number r =>
    have hcheck : checkNumber r v = .ok w := mapError_eq_ok.mp h
    cases v with
    | float x =>
      cases hbroken : r.broken? x with
      | some e => simp [checkNumber, hbroken] at hcheck
      | none =>
        simp only [checkNumber, hbroken, Except.ok.injEq] at hcheck
        subst hcheck
        exact .number rfl rfl hbroken
    | int i =>
      cases hi : Double.ofInt? i with
      | none => simp [checkNumber, hi] at hcheck
      | some x =>
        cases hbroken : r.broken? x with
        | some e => simp [checkNumber, hi, hbroken] at hcheck
        | none =>
          simp only [checkNumber, hi, hbroken, Except.ok.injEq] at hcheck
          subst hcheck
          exact .number rfl (by simp [Number.toDouble, hi]) hbroken
    | _ => cases hcheck
  | guardrails =>
    cases v with
    | bool b =>
      obtain rfl := Except.ok.inj h
      exact .flag b
    | list xs =>
      obtain rfl := Except.ok.inj h
      exact .list xs
    | _ => cases h

theorem not_becomes_null {form : Form} {w : Value} : ¬ Becomes form .null w := by
  generalize hv : Value.null = v
  intro h
  cases h with
  | number hn => cases hv ▸ hn
  | flag b => cases hv
  | list xs => cases hv

/-- A value and what stands for it in the strict input; the default stands for an absent one. -/
def Stands (f : Field) (v w : Value) : Prop :=
  Becomes f.form v w ∨ v = .null ∧ ∃ x, f.default? = some x ∧ w = .float x

theorem stands_of_check {f : Field} {resolved : Entries} {found : Option Value} {w : Value}
    (hfound : resolved.get? f.name = found.filter fun v => !v.isNull)
    (h : f.check resolved = .ok w) : Stands f (found.getD .null) w := by
  have habsent (hnone : resolved.get? f.name = none) :
      ∃ x, f.default? = some x ∧ w = .float x := by
    cases hdefault : f.default? with
    | none => simp [Field.check, hnone, hdefault] at h
    | some x =>
      simp only [Field.check, hnone, hdefault, Except.ok.injEq] at h
      exact ⟨x, rfl, h.symm⟩
  cases found with
  | none => exact .inr ⟨rfl, habsent hfound⟩
  | some v =>
    by_cases hnull : v.isNull = true
    · have hv : v = .null := by cases v <;> simp_all [Value.isNull]
      exact .inr ⟨hv, habsent (by simp [hfound, hnull])⟩
    · have hsome : resolved.get? f.name = some v := by simp [hfound, hnull]
      left
      simp only [Field.check, hsome] at h
      exact becomes_of_check (mapError_eq_ok.mp h)

/-- What is collected are the values of the checks, if all of them have one. -/
theorem collect_eq_ok {checks : List (String × Except (List Schema.Problem) Value)}
    {vs : List (String × Value)} (h : collect checks = .ok vs) :
    checks = vs.map fun p => (p.1, .ok p.2) := by
  induction checks generalizing vs with
  | nil =>
    obtain rfl : [] = vs := Except.ok.inj h
    rfl
  | cons c rest ih =>
    obtain ⟨name, _ | v⟩ := c
    · simp only [collect] at h
      cases hrest : collect rest <;> simp [hrest] at h
    · simp only [collect] at h
      obtain ⟨more, hmore, rfl⟩ := map_eq_ok.mp h
      rw [ih hmore, List.map_cons]

theorem names_eq (b : Builtin) : (fields b).map Field.name = b.aliases.map Alias.field := by
  cases b <;> rfl

/-- The strict input holds, under the name of each field, what stands for its value in the
context. -/
theorem stands_of_ofContext {b : Builtin} {context : Value} {input : Entries}
    (h : ofContext b context = .ok input) {f : Field} (hf : f ∈ fields b) :
    Stands f (Input.canonicalField b.aliases context f.name)
      (Input.canonicalField b.aliases (.map input) f.name) := by
  obtain ⟨vs, hvs, rfl⟩ := map_eq_ok.mp h
  have hchecks := collect_eq_ok hvs
  have hnames : vs.map Prod.fst = b.aliases.map Alias.field := by
    have hfst := congrArg (List.map Prod.fst) hchecks
    simp only [List.map_map] at hfst
    exact (hfst.symm.trans (names_eq b) :)
  obtain ⟨p, hp, hcheck⟩ := List.mem_map.mp (hchecks ▸ List.mem_map_of_mem hf)
  obtain ⟨hname, hvalue⟩ := Prod.mk.inj hcheck
  have hinput : Input.canonicalField b.aliases (.map (Entries.ofNames vs)) f.name = p.2 := by
    rw [← hname]
    exact canonicalField_ofNames (stable_aliases b) hnames hp
  have hdistinct : ((b.aliases.map fun a => (a.field, a.resolve context)).map Prod.fst).Nodup := by
    rw [List.map_map]
    exact (stable_aliases b).distinct
  rw [hinput]
  exact stands_of_check (Entries.get?_filter_isNull hdistinct f.name) hvalue.symm

/-- Only a mapping passes. -/
theorem eq_map_of_ofContext {b : Builtin} {context : Value} {input : Entries}
    (h : ofContext b context = .ok input) : ∃ es, context = .map es := by
  by_contra hother
  have hnone (name : String) : context.field name = .null := by
    cases context with
    | map es => exact absurd ⟨es, rfl⟩ hother
    | _ => rfl
  have hrequired : ∃ f ∈ fields b, f.default? = none := by
    cases b <;> exact ⟨_, List.mem_cons_self, rfl⟩
  obtain ⟨f, hf, hdefault⟩ := hrequired
  obtain ⟨a, ha, hname⟩ := List.mem_map.mp (names_eq b ▸ List.mem_map_of_mem hf)
  have hstands := stands_of_ofContext h hf
  rw [← hname, canonicalField_of_no_field (stable_aliases b) ha hnone] at hstands
  rcases hstands with hbecomes | ⟨-, x, hx, -⟩
  · exact not_becomes_null hbecomes
  · simp [hdefault] at hx

theorem number_of_becomes {r : Range} {v w : Value} (h : Becomes (.number r) v w)
    (name : String) :
    ∃ x, Input.number name v = .ok x ∧ Input.number name w = .ok x ∧ r.broken? x = none := by
  cases h with
  | number hn hx hbroken =>
    refine ⟨_, ?_, rfl, hbroken⟩
    cases v with
    | float x =>
      obtain rfl := Option.some.inj hn
      exact congrArg Except.ok (Except.ok.inj hx)
    | int i =>
      obtain rfl := Option.some.inj hn
      cases hi : Double.ofInt? i <;> simp_all [Number.toDouble, Input.number]
    | _ => cases hn

theorem ratio_of_unbroken {x : Float} (h : Range.broken? ⟨some 1⟩ x = none) :
    ¬ x < 0.0 ∧ ¬ 1.0 < x := by
  simp only [Range.broken?] at h
  split at h
  · cases h
  · next hupper =>
    split at h
    · cases h
    · next hlower =>
      refine ⟨hlower, ?_⟩
      intro hlt
      have hgt : Double.compareInt x 1 = some .gt := by
        rw [Exact.float_lt_iff, Exact.ofDouble_one] at hlt
        rw [Exact.compareInt_eq, Int.cast_one, ← Exact.compare_swap, hlt]
        rfl
      simp [hgt] at hupper

theorem count_of_unbroken {x : Float} (h : Range.broken? ⟨none⟩ x = none) : ¬ x < 0.0 := by
  have hle : 0.0 ≤ x := by
    simp only [Range.broken?] at h
    split at h
    · assumption
    · cases h
  rw [Exact.float_lt_iff, ← Exact.compare_swap]
  rcases (Exact.float_le_iff _ _).mp hle with hlt | heq
  · simp [hlt]
  · simp [heq]

/-- A lenient reading of one field gives the same for two contexts. -/
def FieldAlike {α : Type} (read : String → Value → Except InputFailure α) (aliases : List Alias)
    (context context' : Value) (name : String) : Prop :=
  ∃ a, read name (Input.canonicalField aliases context name) = .ok a ∧
    read name (Input.canonicalField aliases context' name) = .ok a

section
variable {b : Builtin} {context : Value} {input : Entries}
  (h : ofContext b context = .ok input)
include h

theorem ratio_alike {name : String} {x? : Option Float} (hf : ⟨name, ratio, x?⟩ ∈ fields b)
    (hdefault : x? = none ∨ x? = some 0.0) :
    FieldAlike Input.ratio b.aliases context (.map input) name := by
  rcases stands_of_ofContext h hf with hbecomes | ⟨hnull, x, hx, hw⟩
  · obtain ⟨x, hv, hw, hbroken⟩ := number_of_becomes hbecomes name
    obtain ⟨hlower, hupper⟩ := ratio_of_unbroken hbroken
    exact ⟨x, by simp [Input.ratio, hv, hlower, hupper], by simp [Input.ratio, hw, hlower, hupper]⟩
  · rcases hdefault with rfl | rfl
    · cases hx
    · obtain rfl := Option.some.inj hx
      have hlower : ¬ (0.0 : Float) < 0.0 := by decide +kernel
      have hupper : ¬ (1.0 : Float) < 0.0 := by decide +kernel
      refine ⟨0.0, ?_, ?_⟩
      · rw [hnull]
        simp [Input.ratio, Input.number, hlower, hupper]
      · rw [hw]
        simp [Input.ratio, Input.number, hlower, hupper]

theorem count_alike {name : String} (hf : ⟨name, .number ⟨none⟩, none⟩ ∈ fields b) :
    FieldAlike Input.count b.aliases context (.map input) name := by
  rcases stands_of_ofContext h hf with hbecomes | ⟨-, x, hx, -⟩
  · obtain ⟨x, hv, hw, hbroken⟩ := number_of_becomes hbecomes name
    have hlower := count_of_unbroken hbroken
    exact ⟨x, by simp [Input.count, hv, hlower], by simp [Input.count, hw, hlower]⟩
  · cases hx

theorem flag_alike {name : String} (hf : ⟨name, .guardrails, none⟩ ∈ fields b) :
    FieldAlike Input.flag b.aliases context (.map input) name := by
  have hstands := stands_of_ofContext h hf
  unfold FieldAlike
  generalize Input.canonicalField b.aliases context name = v at hstands ⊢
  generalize Input.canonicalField b.aliases (.map input) name = w at hstands ⊢
  rcases hstands with hbecomes | ⟨-, x, hx, -⟩
  · cases hbecomes with
    | flag flag => exact ⟨flag, rfl, rfl⟩
    | list xs => exact ⟨!xs.isEmpty, rfl, rfl⟩
  · cases hx

end

/-- Two contexts from which a lenient reading takes the same. -/
def Alike {α : Type} (read : Value → Except InputFailure α) (context context' : Value) : Prop :=
  ∃ a, read context = .ok a ∧ read context' = .ok a

theorem Alike.map {α β : Type} {read : Value → Except InputFailure α} {context context' : Value}
    (h : Alike read context context') (f : α → β) :
    Alike (fun v => do .ok (f (← read v))) context context' := by
  obtain ⟨a, ha, ha'⟩ := h
  exact ⟨f a, by simp [ha], by simp [ha']⟩

section
variable {context : Value} {input : Entries}

theorem backCasting_alike (h : ofContext .backCasting context = .ok input) :
    Alike BackCastingInput.ofContext context (.map input) := by
  obtain ⟨es, rfl⟩ := eq_map_of_ofContext h
  obtain ⟨c, hc, hc'⟩ := ratio_alike h (List.mem_cons_self) (.inl rfl)
  obtain ⟨a, ha, ha'⟩ := ratio_alike h (.tail _ List.mem_cons_self) (.inr rfl)
  simp only [Builtin.aliases] at hc hc' ha ha'
  refine ⟨⟨c, a⟩, ?_, ?_⟩
  · simp [BackCastingInput.ofContext, Input.requireMapping, hc, ha]
  · simp [BackCastingInput.ofContext, Input.requireMapping, hc', ha']

theorem coherence_alike (h : ofContext .coherenceScan context = .ok input) :
    Alike CoherenceInput.ofContext context (.map input) := by
  obtain ⟨es, rfl⟩ := eq_map_of_ofContext h
  obtain ⟨t, ht, ht'⟩ := ratio_alike h (List.mem_cons_self) (.inl rfl)
  obtain ⟨a, ha, ha'⟩ := ratio_alike h (.tail _ List.mem_cons_self) (.inl rfl)
  obtain ⟨k, hk, hk'⟩ := ratio_alike h (.tail _ (.tail _ List.mem_cons_self)) (.inl rfl)
  simp only [Builtin.aliases] at ht ht' ha ha' hk hk'
  refine ⟨⟨t, a, k⟩, ?_, ?_⟩
  · simp [CoherenceInput.ofContext, Input.requireMapping, ht, ha, hk]
  · simp [CoherenceInput.ofContext, Input.requireMapping, ht', ha', hk']

theorem automation_alike (h : ofContext .automationCheck context = .ok input) :
    Alike AutomationInput.ofContext context (.map input) := by
  obtain ⟨es, rfl⟩ := eq_map_of_ofContext h
  obtain ⟨f, hf, hf'⟩ := count_alike h (List.mem_cons_self)
  obtain ⟨a, ha, ha'⟩ := ratio_alike h (.tail _ List.mem_cons_self) (.inl rfl)
  obtain ⟨g, hg, hg'⟩ := flag_alike h (.tail _ (.tail _ List.mem_cons_self))
  simp only [Builtin.aliases] at hf hf' ha ha' hg hg'
  refine ⟨⟨f, a, g⟩, ?_, ?_⟩
  · simp [AutomationInput.ofContext, Input.requireMapping, hf, ha, hg]
  · simp [AutomationInput.ofContext, Input.requireMapping, hf', ha', hg']

/-- Whatever the strict reading accepts is adapted to the same inputs before and after it. -/
theorem adapt_alike {b : Builtin} (h : ofContext b context = .ok input) :
    Alike b.adapt context (.map input) := by
  cases b with
  | backCasting => exact (backCasting_alike h).map _
  | coherenceScan => exact (coherence_alike h).map _
  | automationCheck => exact (automation_alike h).map _

/-- The function of the heuristic does the same with both. -/
theorem run_alike {b : Builtin} (h : ofContext b context = .ok input) (settings : Entries) :
    (b.behaviour settings).run (.map input) = (b.behaviour settings).run context := by
  cases b with
  | backCasting =>
    obtain ⟨i, hi, hi'⟩ := backCasting_alike h
    simp only [Builtin.behaviour, Behaviour.run, hi, hi']
  | coherenceScan =>
    obtain ⟨i, hi, hi'⟩ := coherence_alike h
    simp only [Builtin.behaviour, Behaviour.run, hi, hi']
  | automationCheck =>
    obtain ⟨i, hi, hi'⟩ := automation_alike h
    simp only [Builtin.behaviour, Behaviour.run, hi, hi']

end

end StrictInput
end DecisionGate
