import DecisionGate.Proofs.Effective
import DecisionGate.Proofs.Inputs

/-!
# What the lenient reading lets through

A heuristic reads its fields one after the other, each by the same three rules: a ratio, a count or
a flag. A number is refused when it is less than a bound or greater than one. NaN is neither, so it
is let through, and everything else that is let through is in its range. An integer that no double
holds is not refused either; the conversion fails before the range is looked at, and not as a
refused input does.
-/
namespace DecisionGate

namespace Value

theorem ofNumber_eq_nan_iff {v : Value} {n : Number} (h : v.number? = some n) :
    Exact.ofNumber n = .nan ↔ v.IsNaN := by
  cases v with
  | float x =>
    obtain rfl := Option.some.inj h
    simp [IsNaN, Exact.isNaN_iff, Exact.ofNumber]
  | bool b =>
    obtain rfl := Option.some.inj h
    simp [IsNaN, Exact.ofNumber]
  | int i =>
    obtain rfl := Option.some.inj h
    simp [IsNaN, Exact.ofNumber]
  | _ => cases h

/-- A number that becomes a double becomes NaN when it was NaN. -/
theorem isNaN_toDouble {v : Value} {n : Number} {x : Float} (hn : v.number? = some n)
    (hx : n.toDouble = .ok x) : Double.isNaN x = true ↔ v.IsNaN := by
  rw [Exact.isNaN_iff, ← ofNumber_eq_nan_iff hn]
  cases n with
  | float y =>
    obtain rfl := Except.ok.inj hx
    rfl
  | int i =>
    cases hi : Double.ofInt? i with
    | none => simp [Number.toDouble, hi] at hx
    | some y =>
      obtain rfl : y = x := by simpa [Number.toDouble, hi] using hx
      obtain ⟨m, k, -, hexact⟩ := Exact.ofDouble_ofInt hi
      simp [hexact, Exact.ofNumber]

/-- What is not less is at least as great, unless one of the two is NaN. -/
theorem compare_ge_iff {v w : Value} (h : Value.compare .lt v w = .ok false) :
    Value.compare .ge v w = .ok true ↔ ¬ v.IsNaN ∧ ¬ w.IsNaN := by
  unfold Value.compare at h ⊢
  split at h
  · next m n hm hn =>
    have hlt := Except.ok.inj h
    rw [Except.ok.injEq, ← ofNumber_eq_nan_iff hm, ← ofNumber_eq_nan_iff hn, ← not_or,
      ← Exact.compare_eq_none_iff]
    rw [Number.compare, Exact.order_eq] at hlt ⊢
    cases horder : (Exact.ofNumber m).compare (Exact.ofNumber n) with
    | none => simp
    | some o => simp_all [Comparison.holds]
  · cases h

end Value

/-- How a field is read. -/
inductive Slot where
  | ratio
  | count
  | flag
  deriving DecidableEq

namespace Slot

def read (slot : Slot) (field : String) (v : Value) : Except InputFailure Value :=
  match slot with
  | .ratio => (Input.ratio field v).map .float
  | .count => (Input.count field v).map .float
  | .flag => (Input.flag field v).map .bool

/-- A value in the range of a field. -/
def Allows : Slot → Value → Prop
  | .ratio, .float x => 0.0 ≤ x ∧ x ≤ 1.0
  | .count, .float x => 0.0 ≤ x
  | .flag, .bool _ => True
  | _, _ => False

/-- An integer that is to be a number, and that no double holds. -/
def Overflows (slot : Slot) (v : Value) : Prop :=
  slot ≠ .flag ∧ ∃ i, v = .int i ∧ Double.ofInt? i = none

end Slot

namespace Builtin

/-- The fields in the order in which they are read. -/
def slots : Builtin → List (String × Slot)
  | .backCasting => [("end_state_clarity", .ratio), ("market_alignment", .ratio)]
  | .coherenceScan =>
    [("truthfulness", .ratio), ("system_adherence", .ratio), ("skill", .ratio)]
  | .automationCheck =>
    [("frequency", .count), ("standardizable", .ratio), ("has_guardrails", .flag)]

/-- What a context is called that is no mapping. -/
def purpose : Builtin → String
  | .backCasting => "Context for back-casting"
  | .coherenceScan => "Person for coherence scan"
  | .automationCheck => "Task for automation check"

/-- What the context has for a field, under whichever name. -/
def given (b : Builtin) (context : Value) (field : String) : Value :=
  Input.canonicalField b.aliases context field

def readSlot (b : Builtin) (context : Value) (p : String × Slot) :
    Except InputFailure (String × Value) :=
  (p.2.read p.1 (b.given context p.1)).map fun v => (p.1, v)

theorem adapt_eq (b : Builtin) (context : Value) :
    b.adapt context = (Input.requireMapping context b.purpose >>= fun _ =>
      (b.slots.mapM (b.readSlot context)).map Entries.ofNames) := by
  unfold adapt
  cases b with
  | backCasting =>
    simp only [BackCastingInput.ofContext, slots, purpose, List.mapM_cons, List.mapM_nil, readSlot,
      Slot.read, given, aliases]
    generalize Input.requireMapping _ _ = mapping
    generalize Input.ratio "end_state_clarity" _ = clarity
    generalize Input.ratio "market_alignment" _ = alignment
    cases mapping <;> cases clarity <;> cases alignment <;> rfl
  | coherenceScan =>
    simp only [CoherenceInput.ofContext, slots, purpose, List.mapM_cons, List.mapM_nil, readSlot,
      Slot.read, given, aliases]
    generalize Input.requireMapping _ _ = mapping
    generalize Input.ratio "truthfulness" _ = truthfulness
    generalize Input.ratio "system_adherence" _ = system
    generalize Input.ratio "skill" _ = skill
    cases mapping <;> cases truthfulness <;> cases system <;> cases skill <;> rfl
  | automationCheck =>
    simp only [AutomationInput.ofContext, slots, purpose, List.mapM_cons, List.mapM_nil, readSlot,
      Slot.read, given, aliases]
    generalize Input.requireMapping _ _ = mapping
    generalize Input.count "frequency" _ = frequency
    generalize Input.ratio "standardizable" _ = standardizable
    generalize Input.flag "has_guardrails" _ = guardrails
    cases mapping <;> cases frequency <;> cases standardizable <;> cases guardrails <;> rfl

end Builtin

section
variable {field : String} {v w : Value} {x : Float}

/-- A number is NaN when the value was. -/
theorem isNaN_number (h : Input.number field v = .ok x) : Double.isNaN x = true ↔ v.IsNaN := by
  cases v with
  | null =>
    obtain rfl := Except.ok.inj h
    have hzero : Double.isNaN 0.0 = false := by decide +kernel
    simp [Value.IsNaN, hzero]
  | float y => exact Value.isNaN_toDouble (n := .float y) rfl (congrArg Except.ok (Except.ok.inj h))
  | int i =>
    refine Value.isNaN_toDouble (n := .int i) rfl ?_
    cases hi : Double.ofInt? i <;> simp_all [Input.number, Number.toDouble]
  | _ => cases h

theorem number_eq_fault_iff : (∃ f, Input.number field v = .error (.fault f)) ↔
    ∃ i, v = .int i ∧ Double.ofInt? i = none := by
  cases v with
  | int i => cases hi : Double.ofInt? i <;> simp [Input.number, hi]
  | _ => simp [Input.number]

/-- A ratio that is let through is a number, not below zero and not above one. -/
theorem ratio_eq_ok (h : Input.ratio field v = .ok x) :
    Input.number field v = .ok x ∧ ¬ x < 0.0 ∧ ¬ 1.0 < x := by
  obtain ⟨y, hy, hrest⟩ := bind_eq_ok.mp h
  split at hrest
  · cases hrest
  · next hin =>
    obtain rfl := Except.ok.inj hrest
    simp only [Bool.or_eq_true, decide_eq_true_eq, not_or] at hin
    exact ⟨hy, hin⟩

theorem count_eq_ok (h : Input.count field v = .ok x) :
    Input.number field v = .ok x ∧ ¬ x < 0.0 := by
  obtain ⟨y, hy, hrest⟩ := bind_eq_ok.mp h
  split at hrest
  · cases hrest
  · next hin =>
    obtain rfl := Except.ok.inj hrest
    exact ⟨hy, hin⟩

/-- A ratio that is let through is in its range unless it is NaN. -/
theorem ratio_mem_iff (h : Input.ratio field v = .ok x) : (0.0 ≤ x ∧ x ≤ 1.0) ↔ ¬ v.IsNaN := by
  obtain ⟨hx, hlower, hupper⟩ := ratio_eq_ok h
  have hzero : Double.isNaN 0.0 = false := by decide +kernel
  have hone : Double.isNaN 1.0 = false := by decide +kernel
  rw [Exact.float_le_iff_not_lt, Exact.float_le_iff_not_lt, ← isNaN_number hx]
  simp [hlower, hupper, hzero, hone]

theorem count_nonneg_iff (h : Input.count field v = .ok x) : 0.0 ≤ x ↔ ¬ v.IsNaN := by
  obtain ⟨hx, hlower⟩ := count_eq_ok h
  have hzero : Double.isNaN 0.0 = false := by decide +kernel
  rw [Exact.float_le_iff_not_lt, ← isNaN_number hx]
  simp [hlower, hzero]

theorem ratio_eq_fault_iff {f : Fault} :
    Input.ratio field v = .error (.fault f) ↔ Input.number field v = .error (.fault f) := by
  unfold Input.ratio
  cases Input.number field v with
  | error e => simp
  | ok x =>
    rw [ok_bind]
    split <;> simp

theorem count_eq_fault_iff {f : Fault} :
    Input.count field v = .error (.fault f) ↔ Input.number field v = .error (.fault f) := by
  unfold Input.count
  cases Input.number field v with
  | error e => simp
  | ok x =>
    rw [ok_bind]
    split <;> simp

theorem flag_ne_fault {f : Fault} : Input.flag field v ≠ .error (.fault f) := by
  cases v <;> simp [Input.flag]

namespace Slot
variable {slot : Slot}

theorem allows_iff_of_read (h : slot.read field v = .ok w) : slot.Allows w ↔ ¬ v.IsNaN := by
  cases slot with
  | ratio =>
    obtain ⟨x, hx, rfl⟩ := map_eq_ok.mp h
    exact ratio_mem_iff hx
  | count =>
    obtain ⟨x, hx, rfl⟩ := map_eq_ok.mp h
    exact count_nonneg_iff hx
  | flag =>
    obtain ⟨b, hb, rfl⟩ := map_eq_ok.mp h
    have hnot : ¬ v.IsNaN := by
      rintro ⟨x, rfl, -⟩
      cases hb
    simp [Allows, hnot]

/-- Reading fails, rather than being refused, at an integer that is too large. -/
theorem read_eq_fault_iff : (∃ f, slot.read field v = .error (.fault f)) ↔ slot.Overflows v := by
  have hnumber : (∃ f, Input.number field v = .error (.fault f)) ↔
      ∃ i, v = .int i ∧ Double.ofInt? i = none := number_eq_fault_iff
  cases slot with
  | ratio => simpa [read, map_eq_error, ratio_eq_fault_iff, Overflows] using hnumber
  | count => simpa [read, map_eq_error, count_eq_fault_iff, Overflows] using hnumber
  | flag => simp [read, map_eq_error, flag_ne_fault, Overflows]

end Slot
end

namespace Builtin
variable {b : Builtin} {context : Value}

theorem nodup_slots (b : Builtin) : (b.slots.map Prod.fst).Nodup := by cases b <;> decide

theorem names_of_mapM {ps : List (String × Slot)} {vs : List (String × Value)}
    (h : List.Forall₂ (fun p v => b.readSlot context p = .ok v) ps vs) :
    vs.map Prod.fst = ps.map Prod.fst := by
  induction h with
  | nil => rfl
  | cons hp _ ih =>
    obtain ⟨w, -, rfl⟩ := map_eq_ok.mp hp
    rw [List.map_cons, List.map_cons, ih]

/-- The result holds for each field what was read for it. -/
theorem get?_of_adapt {inputs : Entries} (h : b.adapt context = .ok inputs) {p : String × Slot}
    (hp : p ∈ b.slots) :
    ∃ w, p.2.read p.1 (b.given context p.1) = .ok w ∧ inputs.get? p.1 = some w := by
  rw [adapt_eq] at h
  obtain ⟨_, -, h⟩ := bind_eq_ok.mp h
  obtain ⟨vs, hvs, rfl⟩ := map_eq_ok.mp h
  have hnames := names_of_mapM (forall₂_of_mapM_ok hvs)
  obtain ⟨v, hv, hread⟩ := exists_of_mapM_ok hvs hp
  obtain ⟨w, hw, rfl⟩ := map_eq_ok.mp hread
  exact ⟨w, hw, Entries.get?_ofNames_of_mem (hnames ▸ nodup_slots b) hv⟩

/-- The first field of a mapping that cannot be read has an integer that no double holds. -/
def Overflows (b : Builtin) (context : Value) : Prop :=
  (∃ es, context = .map es) ∧ ∃ before p after, b.slots = before ++ p :: after ∧
    (∀ q ∈ before, ∃ v, b.readSlot context q = .ok v) ∧ p.2.Overflows (b.given context p.1)

theorem adapt_eq_fault_iff :
    (∃ f, b.adapt context = .error (.fault f)) ↔ b.Overflows context := by
  rw [adapt_eq]
  cases context with
  | map es =>
    have hmapping : Input.requireMapping (.map es) b.purpose = .ok () := rfl
    simp only [hmapping, ok_bind, map_eq_error, mapM_eq_error_iff, readSlot]
    constructor
    · rintro ⟨f, before, p, after, hsplit, hbefore, hp⟩
      exact ⟨⟨es, rfl⟩, before, p, after, hsplit, hbefore, Slot.read_eq_fault_iff.mp ⟨f, hp⟩⟩
    · rintro ⟨-, before, p, after, hsplit, hbefore, hp⟩
      obtain ⟨f, hf⟩ : ∃ f, p.2.read p.1 (b.given (.map es) p.1) = .error (.fault f) :=
        Slot.read_eq_fault_iff.mpr hp
      exact ⟨f, before, p, after, hsplit, hbefore, hf⟩
  | _ => simp [Input.requireMapping, Overflows]

end Builtin

/-- A scan without a veto is of a truthfulness that reaches the threshold, unless one of the two is
NaN. -/
theorem coherence_truthful_iff {s : Coherence.Settings Value} {context : Value} {d : Decision}
    (h : (Behaviour.coherence s).run context = .ok (.decision d)) (hveto : d.veto = false) :
    ∃ i, CoherenceInput.ofContext context = .ok i ∧
      (Value.compare .ge (.float i.truthfulness) s.veto = .ok true ↔
        ¬ (Builtin.coherenceScan.given context "truthfulness").IsNaN ∧ ¬ s.veto.IsNaN) := by
  obtain ⟨i, hi, hrest⟩ := bind_eq_ok.mp h
  obtain ⟨d', hd, hdecision⟩ := bind_eq_ok.mp hrest
  obtain rfl : d' = d := Answer.decision.inj (Except.ok.inj hdecision)
  have hi := mapError_eq_ok.mp hi
  refine ⟨i, hi, ?_⟩
  obtain ⟨o, ho, rfl⟩ := map_eq_ok.mp (mapError_eq_ok.mp hd)
  rcases Coherence.assess_split ho with ⟨-, rfl⟩ | ⟨hlt, -⟩
  · cases hveto
  · obtain ⟨_, -, hi⟩ := bind_eq_ok.mp hi
    obtain ⟨x, hx, hi⟩ := bind_eq_ok.mp hi
    obtain ⟨_, -, hi⟩ := bind_eq_ok.mp hi
    obtain ⟨_, -, hi⟩ := bind_eq_ok.mp hi
    obtain rfl := Except.ok.inj hi
    have hfloat : (Value.float x).IsNaN ↔ Double.isNaN x = true := by simp [Value.IsNaN]
    rw [Value.compare_ge_iff hlt, hfloat, isNaN_number (ratio_eq_ok hx).1]
    rfl

/-- A decision without a veto. -/
def Answer.isUnvetoed : Answer → Bool
  | .decision d => !d.veto
  | .value _ => false

theorem exists_unvetoed {ε : Type} {r : Except ε Answer}
    (h : r.toOption.any Answer.isUnvetoed = true) :
    ∃ d, r = .ok (.decision d) ∧ d.veto = false := by
  obtain ⟨a, ha, hunvetoed⟩ := any_toOption_iff.mp h
  cases a with
  | value v => cases hunvetoed
  | decision d => exact ⟨d, ha, by simpa [Answer.isUnvetoed] using hunvetoed⟩

/-- What an adapter lets through is in range exactly when none of its numbers is NaN, an adapter
that lets nothing through has refused its context exactly when it did not run into an integer that
is too large, and what a scan does not veto is truthful enough exactly when neither the truthfulness
nor the threshold is NaN. -/
theorem adapt_bounds_iff (b : Builtin) (context : Value) :
    (∀ inputs, b.adapt context = .ok inputs →
      ((∀ p ∈ b.slots, ∃ w, inputs.get? p.1 = some w ∧ p.2.Allows w) ↔
        ∀ p ∈ b.slots, ¬ (b.given context p.1).IsNaN)) ∧
    (∀ e, b.adapt context = .error e →
      ((∃ p, e = .problem p) ↔ ¬ b.Overflows context)) ∧
    ∀ s d, (Behaviour.coherence s).run context = .ok (.decision d) → d.veto = false →
      ∃ i, CoherenceInput.ofContext context = .ok i ∧
        (Value.compare .ge (.float i.truthfulness) s.veto = .ok true ↔
          ¬ (Builtin.coherenceScan.given context "truthfulness").IsNaN ∧ ¬ s.veto.IsNaN) := by
  refine ⟨fun inputs h => ?_, fun e h => ?_, fun s d h hveto => coherence_truthful_iff h hveto⟩
  · apply forall₂_congr
    intro p hp
    obtain ⟨w, hread, hget⟩ := Builtin.get?_of_adapt h hp
    rw [← Slot.allows_iff_of_read hread, hget]
    simp
  · rw [← Builtin.adapt_eq_fault_iff, h]
    cases e with
    | problem p => simp
    | fault f => simp

/-- A context under other names than the canonical ones. -/
def renamed : Value :=
  Value.ofNames
    [("truthfulnessCoherence", .int 1), ("systemAdherencePotential", .float 0.5),
     ("technicalSkill", .int 0)]

/-- A context whose only number is out of its range. -/
def outOfRange : Value := Value.ofNames [("skill", .float 1.5)]

theorem adapt_bounds_iff_renamed :
    (∃ inputs, Builtin.coherenceScan.adapt renamed = .ok inputs ∧
      ∀ p ∈ Builtin.coherenceScan.slots, ∃ w, inputs.get? p.1 = some w ∧ p.2.Allows w) ∧
    (∃ p, Builtin.coherenceScan.adapt outOfRange = .error (.problem p)) ∧
    ∃ d i, (Behaviour.coherence (Coherence.settings [])).run renamed = .ok (.decision d) ∧
      d.veto = false ∧ CoherenceInput.ofContext renamed = .ok i ∧
      Value.compare .ge (.float i.truthfulness) (Coherence.settings []).veto = .ok true := by
  have hhalf : Double.isNaN 0.5 = false := by decide +kernel
  have htruthfulness : Builtin.coherenceScan.given renamed "truthfulness" = .int 1 := rfl
  have hsystem : Builtin.coherenceScan.given renamed "system_adherence" = .float 0.5 := rfl
  have hskill : Builtin.coherenceScan.given renamed "skill" = .int 0 := rfl
  refine ⟨?_, ?_, ?_⟩
  · obtain ⟨inputs, h⟩ := isSome_toOption_iff.mp
      (show (Builtin.coherenceScan.adapt renamed).toOption.isSome = true by decide +kernel)
    refine ⟨inputs, h, ((adapt_bounds_iff .coherenceScan renamed).1 inputs h).mpr ?_⟩
    simp [Builtin.slots, htruthfulness, hsystem, hskill, Value.IsNaN, hhalf]
  · cases h : Builtin.coherenceScan.adapt outOfRange with
    | ok inputs =>
      have hnone : (Builtin.coherenceScan.adapt outOfRange).toOption.isNone = true := by
        decide +kernel
      simp [h, Except.toOption] at hnone
    | error e =>
      have hfits : ¬ Builtin.coherenceScan.Overflows outOfRange := by
        rintro ⟨-, before, p, after, hsplit, -, -, i, hi, -⟩
        have hp : p ∈ Builtin.coherenceScan.slots := by simp [hsplit]
        simp only [Builtin.slots, List.mem_cons, List.not_mem_nil, or_false] at hp
        rcases hp with rfl | rfl | rfl <;> cases hi
      obtain ⟨p, rfl⟩ := ((adapt_bounds_iff .coherenceScan outOfRange).2.1 e h).mpr hfits
      exact ⟨p, rfl⟩
  · obtain ⟨d, hd, hveto⟩ := exists_unvetoed
      (show ((Behaviour.coherence (Coherence.settings [])).run renamed).toOption.any
        Answer.isUnvetoed = true by decide +kernel)
    obtain ⟨i, hi, hiff⟩ := (adapt_bounds_iff .coherenceScan renamed).2.2 _ d hd hveto
    have hthreshold : (Coherence.settings []).veto = .float 0.7 := rfl
    have hlimit : Double.isNaN 0.7 = false := by decide +kernel
    refine ⟨d, i, hd, hveto, hi, hiff.mpr ?_⟩
    simp [htruthfulness, hthreshold, Value.IsNaN, hlimit]

/-- A person of whom nothing is known but that the truthfulness is no number. -/
def unknown : Value := Value.ofNames [("truthfulness", .float Double.nan)]

/-- A truthfulness that no double holds. -/
def beyond : Value := Value.ofNames [("truthfulness", .int (10 ^ 400))]

/-- NaN is let through as a ratio and is not vetoed under the defaults, and an integer that is too
large is not refused as an input. -/
theorem adapt_unbounded :
    (∃ inputs x, Builtin.coherenceScan.adapt unknown = .ok inputs ∧
      inputs.get? "truthfulness" = some (.float x) ∧ ¬ 0.0 ≤ x) ∧
    (∃ d, (Builtin.coherenceScan.behaviour []).run unknown = .ok (.decision d) ∧
      d.veto = false ∧ ∀ i, CoherenceInput.ofContext unknown = .ok i →
        Value.compare .ge (.float i.truthfulness) (Coherence.settings []).veto ≠ .ok true) ∧
    ∃ f, Builtin.coherenceScan.adapt beyond = .error (.fault f) := by
  have hunknown : (Builtin.coherenceScan.given unknown "truthfulness").IsNaN :=
    ⟨Double.nan, rfl, by decide +kernel⟩
  refine ⟨?_, ?_, ?_⟩
  · obtain ⟨inputs, hinputs⟩ := isSome_toOption_iff.mp
      (show (Builtin.coherenceScan.adapt unknown).toOption.isSome = true by decide +kernel)
    have hslot : ("truthfulness", Slot.ratio) ∈ Builtin.coherenceScan.slots := List.mem_cons_self
    obtain ⟨w, hread, hget⟩ := Builtin.get?_of_adapt hinputs hslot
    obtain ⟨x, hx, rfl⟩ := map_eq_ok.mp (show (Input.ratio "truthfulness"
      (Builtin.coherenceScan.given unknown "truthfulness")).map Value.float = .ok w from hread)
    have hnan : Double.isNaN x = true := (isNaN_number (ratio_eq_ok hx).1).mpr hunknown
    refine ⟨inputs, x, hinputs, hget, ?_⟩
    rw [Exact.float_le_iff_not_lt]
    simp [hnan]
  · obtain ⟨d, hd, hveto⟩ := exists_unvetoed
      (show ((Builtin.coherenceScan.behaviour []).run unknown).toOption.any Answer.isUnvetoed =
        true by decide +kernel)
    refine ⟨d, hd, hveto, ?_⟩
    intro i hi hge
    obtain ⟨i', hi', hiff⟩ := coherence_truthful_iff hd hveto
    obtain rfl := Except.ok.inj (hi.symm.trans hi')
    exact (hiff.mp hge).1 hunknown
  · have hbeyond : Double.ofInt? (10 ^ 400) = none := by decide +kernel
    exact Builtin.adapt_eq_fault_iff.mpr
      ⟨⟨_, rfl⟩, [], _, _, rfl, nofun, by decide, 10 ^ 400, rfl, hbeyond⟩

end DecisionGate
