import DecisionGate.Proofs.Constraints
import DecisionGate.Proofs.Override

/-!
# Complete reports

The report of a document has one problem for each rule that the document breaks, and no problem
hides another one: when one weight or threshold takes another value, all problems stay as they were
but those of that entry and of the rule between the entries of its heuristic. A report is made of
every document whose heuristics are a mapping and whose numbers fit into doubles, with one
exception. The rule on the sum of the weights adds two integers as integers, and no double may hold
their sum although one holds each of them; such a document has no report at all.
-/
namespace DecisionGate

/-- Puts a value under a key of a mapping. -/
def Value.put (v : Value) (key : Key) (w : Value) : Value :=
  match v with
  | .map es => .map (Entries.put key w es)
  | _ => v

namespace Config

/-- The document with another value under a key of a group. -/
def withParameter (config : Value) (b : Builtin) (g : Group) (key : Key) (w : Value) : Value :=
  let heuristics := config.field "heuristics"
  let settings := heuristics.field b.id
  config.put (.str "heuristics")
    (heuristics.put (.str b.id) (settings.put (.str g.name) ((settings.field g.name).put key w)))

/-- Whether a rule is about a key of a group, or about several keys of its heuristic. -/
def Constraint.concerns (b : Builtin) (g : Group) (key : Key) : Constraint → Bool
  | .entry b' g' k _ => b' = b && g' = g && k.sameAs key
  | .weightSum => b = .backCasting
  | .review => b = .coherenceScan
  | .standardization => b = .automationCheck
  | _ => false

/-- The problems that have nothing to do with a key of a group. -/
def elsewhere (b : Builtin) (g : Group) (key : Key) (problems : List Problem) : List Problem :=
  problems.filter fun p => !p.subject.concerns b g key

section
variable {b : Builtin} {g : Group} {key : Key}

theorem elsewhere_append (found found' : List Problem) :
    elsewhere b g key (found ++ found') = elsewhere b g key found ++ elsewhere b g key found' :=
  List.filter_append ..

/-- Problems of rules that are all about the key. -/
theorem elsewhere_of_reports {config : Value} {found : List Problem} {cs : List Constraint}
    (h : Reports config found cs) (hcs : ∀ c ∈ cs, c.concerns b g key = true) :
    elsewhere b g key found = [] := by
  refine List.filter_eq_nil_iff.mpr fun p hp => ?_
  have hsubject : p.subject ∈ broken config cs := h ▸ List.mem_map_of_mem hp
  simp [hcs _ (List.mem_of_mem_filter hsubject)]

end

theorem field_set_self (es : Entries) (name : String) (v : Value) :
    (Value.map (es.set name v)).field name = v := by
  simp [Value.field, Entries.get?_set_self]

theorem field_set_of_ne {name other : String} (h : other ≠ name) (es : Entries) (v : Value) :
    (Value.map (es.set name v)).field other = (Value.map es).field other := by
  simp [Value.field, Entries.get?_set_of_ne h]

theorem put_ne_nil (key : Key) (v : Value) (es : Entries) : Entries.put key v es ≠ [] := by
  cases es with
  | nil => simp [Entries.put]
  | cons e rest =>
    rw [Entries.put]
    split <;> simp

theorem Group.name_injective {g g' : Group} (h : g.name = g'.name) : g = g' := by
  cases g <;> cases g' <;> first | rfl | exact absurd h (by decide)

/-- Two documents that differ in the entries of one group. -/
structure Differs (b : Builtin) (g : Group) (hs hs' : Entries) (es es' : Entries) : Prop where
  filled : IsFilled (valueOf hs b)
  filled' : IsFilled (valueOf hs' b)
  group : (valueOf hs b).field g.name = .map es
  group' : (valueOf hs' b).field g.name = .map es'
  inside : ∀ g', g' ≠ g → (valueOf hs' b).field g'.name = (valueOf hs b).field g'.name
  outside : ∀ b', b' ≠ b → valueOf hs' b' = valueOf hs b'

section
variable {config : Value} {b : Builtin} {g : Group} {es : Entries}

theorem withParameter_eq (h : parameters config b g = .map es) (key : Key) (w : Value) :
    ∃ fields hs settings : Entries, config = .map fields ∧ config.field "heuristics" = .map hs ∧
      valueOf hs b = .map settings ∧ settings ≠ [] ∧
      (Value.map settings).field g.name = .map es ∧
      withParameter config b g key w = .map (fields.set "heuristics" (.map (hs.set b.id
        (.map (settings.set g.name (.map (Entries.put key w es))))))) := by
  obtain ⟨settings, hsettings, hne⟩ := map_of_field h
  obtain ⟨hs, hhs, -⟩ := map_of_field hsettings
  obtain ⟨fields, rfl, -⟩ := map_of_field hhs
  have hgroup : (Value.map settings).field g.name = .map es := hsettings ▸ h
  rw [hhs] at hsettings
  refine ⟨fields, hs, settings, rfl, hhs, hsettings, hne, hgroup, ?_⟩
  simp only [withParameter, hhs, hsettings, hgroup, Value.put]
  rfl

/-- What another value for a parameter leaves as it was. -/
theorem differs_withParameter (h : parameters config b g = .map es) (key : Key) (w : Value) :
    ∃ hs hs' : Entries, config.field "heuristics" = .map hs ∧
      (withParameter config b g key w).field "heuristics" = .map hs' ∧ hs' ≠ [] ∧
      Differs b g hs hs' es (Entries.put key w es) ∧
      ∀ name, name ≠ "heuristics" →
        (withParameter config b g key w).field name = config.field name := by
  obtain ⟨fields, hs, settings, rfl, hhs, hsettings, hne, hgroup, hwith⟩ :=
    withParameter_eq h key w
  have hvalue : ∀ v, valueOf (hs.set b.id v) b = v := fun v => by
    simp [valueOf, Entries.get?_set_self]
  rw [hwith]
  refine ⟨hs, _, hhs, field_set_self .., put_ne_nil _ _ _, ?_,
    fun name hname => field_set_of_ne hname ..⟩
  exact {
    filled := ⟨settings, hsettings, hne⟩
    filled' := ⟨_, hvalue _, put_ne_nil _ _ _⟩
    group := by rw [hsettings, hgroup]
    group' := by rw [hvalue, field_set_self]
    inside := fun g' hg' => by
      rw [hvalue, hsettings, field_set_of_ne fun hname => hg' (Group.name_injective hname)]
    outside := fun b' hb' => by
      rw [valueOf, valueOf, Entries.get?_set_of_ne fun hid => hb' (Builtin.id_injective hid)] }

end

section
variable {config config' : Value} {b : Builtin} {g : Group} {key : Key}

/-- The entries of a group, one of which has another value. Its problem is about the key in both
cases, and those of the others are the same. -/
theorem elsewhere_entries {es : Entries} {v w : Value} {found found' : List (Option Problem)}
    (hfits : ∀ e ∈ es, e.2.Fits) (hfits' : ∀ e ∈ Entries.put key w es, e.2.Fits)
    (hkey : es.find? key = some v)
    (h : es.mapM (fun e => checkEntry g b e.1 e.2) = .ok found)
    (h' : (Entries.put key w es).mapM (fun e => checkEntry g b e.1 e.2) = .ok found') :
    elsewhere b g key (found'.filterMap id) = elsewhere b g key (found.filterMap id) := by
  induction es generalizing found found' with
  | nil => cases hkey
  | cons e rest ih =>
    obtain ⟨k, u⟩ := e
    simp only [Entries.find?, Entries.put] at hkey hfits' h'
    obtain ⟨p, ps, hp, hps, rfl⟩ := mapM_cons_eq_ok.mp h
    obtain ⟨hu, hrest⟩ := List.forall_mem_cons.mp hfits
    by_cases hsame : k.sameAs key = true
    · rw [if_pos hsame] at hfits' h'
      obtain ⟨p', ps', hp', hps', rfl⟩ := mapM_cons_eq_ok.mp h'
      obtain rfl := Except.ok.inj (hps.symm.trans hps')
      have hnone : ∀ {q : Option Problem} {u : Value}, u.Fits → checkEntry g b k u = .ok q →
          elsewhere b g key q.toList = [] := by
        intro q u hu hq
        have hreports : Reports .null q.toList [.entry b g k u] := reports_entry hu hq
        exact elsewhere_of_reports hreports (by simp [Constraint.concerns, hsame])
      rw [filterMap_cons_id, filterMap_cons_id, elsewhere_append, elsewhere_append, hnone hu hp,
        hnone (hfits' _ List.mem_cons_self) hp']
    · rw [if_neg hsame] at hfits' h' hkey
      obtain ⟨p', ps', hp', hps', rfl⟩ := mapM_cons_eq_ok.mp h'
      obtain rfl := Except.ok.inj (hp.symm.trans hp')
      have hothers := ih hrest (List.forall_mem_cons.mp hfits').2 hkey hps hps'
      rw [filterMap_cons_id, filterMap_cons_id, elsewhere_append, elsewhere_append, hothers]

/-- A rule that is about the key, or whose check has found the same. -/
theorem elsewhere_rule {c : Constraint} {found found' : List Problem}
    (h : Reports config found [c]) (h' : Reports config' found' [c])
    (hrule : c.concerns b g key = true ∨ found' = found) :
    elsewhere b g key found' = elsewhere b g key found := by
  rcases hrule with hconcerns | rfl
  · have hall : ∀ d ∈ [c], d.concerns b g key = true := by simpa using hconcerns
    rw [elsewhere_of_reports h hall, elsewhere_of_reports h' hall]
  · rfl

end

theorem checkSection_congr {hs hs' : Entries} {b : Builtin} (h : valueOf hs' b = valueOf hs b) :
    checkSection hs' b = checkSection hs b := by
  unfold valueOf at h
  simp only [checkSection, h]

theorem groupOf?_congr {hs hs' : Entries} {b : Builtin} (h : valueOf hs' b = valueOf hs b)
    (g : Group) : groupOf? hs' b g = groupOf? hs b g := by
  unfold valueOf at h
  simp only [groupOf?, h]

section
variable {config config' : Value} {hs hs' : Entries} {b : Builtin} {g : Group} {key : Key}
  {es : Entries} {v w : Value} (hkey : es.find? key = some v) (hes : (Value.map es).Fits)
  (hes' : (Value.map (Entries.put key w es)).Fits)
include hkey hes hes'

theorem elsewhere_group {found found' : List Problem}
    (h : checkEach b g (checkEntry g) (.map es) = .ok found)
    (h' : checkEach b g (checkEntry g) (.map (Entries.put key w es)) = .ok found') :
    elsewhere b g key found' = elsewhere b g key found := by
  have hne : es ≠ [] := by
    rintro rfl
    cases hkey
  obtain ⟨results, hresults, rfl⟩ := checkEach_eq_ok hne h
  obtain ⟨results', hresults', rfl⟩ := checkEach_eq_ok (put_ne_nil _ _ _) h'
  exact elsewhere_entries (fun e he => (fits_map.mp hes e he).2)
    (fun e he => (fits_map.mp hes' e he).2) hkey hresults hresults'

theorem elsewhere_section (hdiffers : Differs b g hs hs' es (Entries.put key w es)) {b' : Builtin}
    {found found' : List Problem} (h : checkSection hs b' = .ok found)
    (h' : checkSection hs' b' = .ok found') :
    elsewhere b g key found' = elsewhere b g key found := by
  by_cases hb : b' = b
  · subst hb
    obtain ⟨weights, thresholds, hw, ht, rfl⟩ := checkSection_eq_ok hdiffers.filled h
    obtain ⟨weights', thresholds', hw', ht', rfl⟩ := checkSection_eq_ok hdiffers.filled' h'
    rw [elsewhere_append, elsewhere_append]
    cases g with
    | weights =>
      rw [hdiffers.inside .thresholds (by decide)] at ht'
      rw [hdiffers.group] at hw
      rw [hdiffers.group'] at hw'
      rw [elsewhere_group hkey hes hes' hw hw', Except.ok.inj (ht.symm.trans ht')]
    | thresholds =>
      rw [hdiffers.inside .weights (by decide)] at hw'
      rw [hdiffers.group] at ht
      rw [hdiffers.group'] at ht'
      rw [elsewhere_group hkey hes hes' ht ht', Except.ok.inj (hw.symm.trans hw')]
  · rw [checkSection_congr (hdiffers.outside b' hb)] at h'
    rw [Except.ok.inj (h.symm.trans h')]

theorem elsewhere_sections (hdiffers : Differs b g hs hs' es (Entries.put key w es))
    {bs : List Builtin} {sections sections' : List (List Problem)}
    (h : bs.mapM (checkSection hs) = .ok sections)
    (h' : bs.mapM (checkSection hs') = .ok sections') :
    elsewhere b g key sections'.flatten = elsewhere b g key sections.flatten := by
  induction bs generalizing sections sections' with
  | nil =>
    obtain rfl := Except.ok.inj h
    obtain rfl := Except.ok.inj h'
    rfl
  | cons b' bs ih =>
    obtain ⟨first, rest, hfirst, hrest, rfl⟩ := mapM_cons_eq_ok.mp h
    obtain ⟨first', rest', hfirst', hrest', rfl⟩ := mapM_cons_eq_ok.mp h'
    simp only [List.flatten_cons, elsewhere_append]
    rw [elsewhere_section hkey hes hes' hdiffers hfirst hfirst', ih hrest hrest']

end

section
variable {hs hs' : Entries} {b : Builtin}

/-- The rules between numbers find the same in the same groups. -/
theorem checkOrder_congr (h : valueOf hs' b = valueOf hs b) (first second : String)
    (broken : Comparison) (problem : Value → Value → Problem) :
    checkOrder hs' b first second broken problem = checkOrder hs b first second broken problem := by
  simp only [checkOrder, groupOf?_congr h]

theorem checkWeightSum_congr (h : valueOf hs' .backCasting = valueOf hs .backCasting) :
    checkWeightSum hs' = checkWeightSum hs := by
  simp only [checkWeightSum, groupOf?_congr h]

end

section
variable {config config' : Value} {hs hs' : Entries} {b : Builtin} {g : Group} {key : Key}
  {es es' : Entries} (hhs : config.field "heuristics" = .map hs)
  (hhs' : config'.field "heuristics" = .map hs') (hfits : config.Fits) (hfits' : config'.Fits)
  (hdiffers : Differs b g hs hs' es es')
include hhs hhs' hfits hfits' hdiffers

/-- Each rule between numbers is about the heuristic, or about one whose entries are the same. -/
theorem elsewhere_specifics {found found' : List Problem} (h : checkSpecifics hs = .ok found)
    (h' : checkSpecifics hs' = .ok found') :
    elsewhere b g key found' = elsewhere b g key found := by
  obtain ⟨sums, review, standardization, hsums, hreview, hstandardization, rfl⟩ :=
    checkSpecifics_eq_ok h
  obtain ⟨sums', review', standardization', hsums', hreview', hstandardization', rfl⟩ :=
    checkSpecifics_eq_ok h'
  have hfirst : elsewhere b g key sums' = elsewhere b g key sums := by
    refine elsewhere_rule (reports_weightSum hhs hsums) (reports_weightSum hhs' hsums') ?_
    by_cases hb : b = .backCasting
    · exact .inl (by simp [Constraint.concerns, hb])
    · rw [checkWeightSum_congr (hdiffers.outside _ (Ne.symm hb))] at hsums'
      exact .inr (Except.ok.inj (hsums'.symm.trans hsums))
  have hsecond : elsewhere b g key review'.toList = elsewhere b g key review.toList := by
    refine elsewhere_rule (reports_review hhs hfits hreview)
      (reports_review hhs' hfits' hreview') ?_
    by_cases hb : b = .coherenceScan
    · exact .inl (by simp [Constraint.concerns, hb])
    · rw [checkOrder_congr (hdiffers.outside _ (Ne.symm hb))] at hreview'
      exact .inr (congrArg _ (Except.ok.inj (hreview'.symm.trans hreview)))
  have hthird : elsewhere b g key standardization'.toList =
      elsewhere b g key standardization.toList := by
    refine elsewhere_rule (reports_standardization hhs hfits hstandardization)
      (reports_standardization hhs' hfits' hstandardization') ?_
    by_cases hb : b = .automationCheck
    · exact .inl (by simp [Constraint.concerns, hb])
    · rw [checkOrder_congr (hdiffers.outside _ (Ne.symm hb))] at hstandardization'
      exact .inr (congrArg _ (Except.ok.inj (hstandardization'.symm.trans hstandardization)))
  simp only [elsewhere_append, hfirst, hsecond, hthird]

end

/-- Another value under a key of a group leaves all problems as they were, and in their order, but
those that have to do with the key. -/
theorem elsewhere_check {config : Value} {b : Builtin} {g : Group} {key : Key} {es : Entries}
    {v w : Value} {problems problems' : List Problem} (hes : parameters config b g = .map es)
    (hkey : es.find? key = some v) (hfits : config.Fits)
    (hfits' : (withParameter config b g key w).Fits) (h : check config = .ok problems)
    (h' : check (withParameter config b g key w) = .ok problems') :
    elsewhere b g key problems' = elsewhere b g key problems := by
  obtain ⟨hs, hs', hhs, hhs', hne', hdiffers, hfield⟩ := differs_withParameter hes key w
  have hmap : (Value.map es).Fits := hes ▸ fits_parameters hfits b g
  have hgroup : parameters (withParameter config b g key w) b g = .map (Entries.put key w es) := by
    rw [parameters, hhs']
    exact hdiffers.group'
  have hmap' : (Value.map (Entries.put key w es)).Fits := hgroup ▸ fits_parameters hfits' b g
  have hne : hs ≠ [] := by
    obtain ⟨settings, hsettings, -⟩ := hdiffers.filled
    obtain ⟨_, heq, hne⟩ := map_of_field (v := .map hs) hsettings
    exact Value.map.inj heq ▸ hne
  cases findings_of_check hhs hne h with
  | intro hsections hspecifics =>
    cases findings_of_check hhs' hne' h' with
    | intro hsections' hspecifics' =>
      simp only [elsewhere_append, hfield "version" (by decide), hfield "validation" (by decide),
        elsewhere_sections hkey hmap hmap' hdiffers hsections hsections',
        elsewhere_specifics hhs hhs' hfits hfits' hdiffers hspecifics hspecifics']

/-- What is promised of the report of a document. -/
structure Complete (config : Value) (problems : List Problem) : Prop where
  one_to_one : problems.map Problem.subject = broken config (constraints config)
  valid_iff : problems = [] ↔ ∀ c ∈ constraints config, c.Kept config
  independent : ∀ (b : Builtin) (g : Group) (es : Entries) (key : Key) (v w : Value),
    parameters config b g = .map es → es.find? key = some v →
    (withParameter config b g key w).Fits → ¬ WeightsOverflow (withParameter config b g key w) →
    ∃ problems', check (withParameter config b g key w) = .ok problems' ∧
      elsewhere b g key problems' = elsewhere b g key problems

theorem check_of_fits {config : Value} (hfits : config.Fits) :
    (∃ problems, check config = .ok problems) ↔ ¬ WeightsOverflow config := by
  rw [exists_ok_iff, fails_check, uncheckable_iff_of_fits hfits]

/-- A document whose heuristics are a mapping and whose numbers fit into doubles has a complete
report, unless two integers are its weights whose sum is too large. -/
theorem check_complete_iff {config : Value} {hs : Entries}
    (hhs : config.field "heuristics" = .map hs) (hne : hs ≠ []) (hfits : config.Fits) :
    (∃ problems, check config = .ok problems ∧ Complete config problems) ↔
      ¬ WeightsOverflow config := by
  rw [← check_of_fits hfits]
  constructor
  · rintro ⟨problems, hproblems, -⟩
    exact ⟨problems, hproblems⟩
  · rintro ⟨problems, hproblems⟩
    have hreports := reports_check hhs hne hfits hproblems
    refine ⟨problems, hproblems, hreports, hreports.eq_nil_iff, ?_⟩
    intro b g es key v w hes hkey hfits' hsum
    obtain ⟨problems', hproblems'⟩ := (check_of_fits hfits').mpr hsum
    exact ⟨problems', hproblems', elsewhere_check hes hkey hfits hfits' hproblems hproblems'⟩

theorem fits_ofNames_nil : (Value.ofNames []).Fits := fits_map.mpr nofun

theorem fits_ofNames_cons {name : String} {v : Value} {pairs : List (String × Value)} :
    (Value.ofNames ((name, v) :: pairs)).Fits ↔ v.Fits ∧ (Value.ofNames pairs).Fits := by
  simp only [Value.ofNames, Entries.ofNames, fits_map, List.map_cons, List.forall_mem_cons]
  simp [Key.toValue, Value.Fits.str]

theorem fits_float {x : Float} : (Value.float x).Fits ↔ Double.isFinite x = true := by
  constructor
  · intro h
    cases h with
    | float _ h => exact h
  · exact .float x

theorem fits_defaultWeights (b : Builtin) : (Value.ofNames (defaultWeights b)).Fits := by
  cases b <;>
    simp only [defaultWeights, fits_ofNames_cons, fits_ofNames_nil, fits_float, and_true] <;>
    decide +kernel

theorem fits_defaultThresholds (b : Builtin) : (Value.ofNames (defaultThresholds b)).Fits := by
  have htwo : (Value.int 2).Fits := .int 2 (ofInt?_ne_none (by decide) (by decide))
  cases b <;>
    simp only [defaultThresholds, fits_ofNames_cons, fits_ofNames_nil, fits_float, htwo, true_and,
      and_true] <;>
    decide +kernel

theorem fits_settings (b : Builtin) {weights : Value} (h : weights.Fits) :
    (Value.ofNames
      [("weights", weights), ("thresholds", Value.ofNames (defaultThresholds b))]).Fits := by
  simp only [fits_ofNames_cons, fits_ofNames_nil, h, fits_defaultThresholds, and_true]

theorem fits_heuristics {settings : Builtin → Value} (h : ∀ b, (settings b).Fits) :
    (Value.ofNames (Builtin.all.map fun b => (b.id, settings b))).Fits := by
  simp only [Builtin.all, List.map_cons, List.map_nil, fits_ofNames_cons, fits_ofNames_nil, h,
    and_true]

theorem fits_documentWith (b : Builtin) {weights : Entries} (h : (Value.map weights).Fits) :
    (Value.map (documentWith b weights)).Fits := by
  have hheuristics : (Value.ofNames (Builtin.all.map fun c => (c.id,
      if c = b then
        Value.ofNames
          [("weights", .map weights), ("thresholds", Value.ofNames (defaultThresholds b))]
      else defaultSection c))).Fits := by
    refine fits_heuristics fun c => ?_
    split
    · exact fits_settings b h
    · exact fits_settings c (fits_defaultWeights c)
  change (Value.ofNames _).Fits
  simp only [fits_ofNames_cons, fits_ofNames_nil, hheuristics, Value.Fits.str, and_true]

theorem isFilled_documentWith (b : Builtin) (weights : Entries) :
    IsFilled ((Value.map (documentWith b weights)).field "heuristics") := by
  refine ⟨_, rfl, fun h => ?_⟩
  cases h

/-- Weights of which one is negative and one is no number. -/
def faultyWeights : Entries :=
  Entries.ofNames [("end_state_vision", .float (-0.5)), ("current_market_signals", .str "low")]

theorem fits_faultyWeights : (Value.map faultyWeights).Fits :=
  fits_ofNames_cons.mpr ⟨fits_float.mpr (by decide +kernel),
    fits_ofNames_cons.mpr ⟨.str _, fits_ofNames_nil⟩⟩

/-- A document that breaks two rules has a complete report of both. -/
theorem check_complete_faulty :
    IsFilled ((Value.map (documentWith .backCasting faultyWeights)).field "heuristics") ∧
      (Value.map (documentWith .backCasting faultyWeights)).Fits ∧
      ∃ problems, check (.map (documentWith .backCasting faultyWeights)) = .ok problems ∧
        problems.length = 2 ∧
        Complete (.map (documentWith .backCasting faultyWeights)) problems := by
  have hfilled := isFilled_documentWith .backCasting faultyWeights
  have hfits := fits_documentWith .backCasting fits_faultyWeights
  have hsum : ¬ WeightsOverflow (.map (documentWith .backCasting faultyWeights)) := by
    rintro ⟨es, i, j, hes, hi, -⟩
    obtain rfl := Value.map.inj hes
    cases hi
  have htwo : (check (.map (documentWith .backCasting faultyWeights))).toOption.any
      (fun problems => problems.length == 2) = true := by decide +kernel
  refine ⟨hfilled, hfits, ?_⟩
  obtain ⟨hs, hhs, hne⟩ := hfilled
  obtain ⟨problems, hproblems, hcomplete⟩ := (check_complete_iff hhs hne hfits).mpr hsum
  rw [hproblems] at htwo
  exact ⟨problems, hproblems, beq_iff_eq.mp htwo, hcomplete⟩

/-- Two weights each of which a double holds, but not their sum. -/
def heavyWeights : Entries :=
  Entries.ofNames
    [("end_state_vision", .int (twoTo 1023)), ("current_market_signals", .int (twoTo 1023))]

theorem fits_heavyWeights : (Value.map heavyWeights).Fits := by
  have hheavy : (Value.int (twoTo 1023)).Fits :=
    .int _ (Option.isSome_iff_ne_none.mp (by decide +kernel))
  exact fits_ofNames_cons.mpr ⟨hheavy, fits_ofNames_cons.mpr ⟨hheavy, fits_ofNames_nil⟩⟩

/-- The check of a document whose numbers all fit ends without a report. -/
theorem heavyWeights_unreported :
    IsFilled ((Value.map (documentWith .backCasting heavyWeights)).field "heuristics") ∧
      (Value.map (documentWith .backCasting heavyWeights)).Fits ∧
      Fails (check (.map (documentWith .backCasting heavyWeights))) := by
  refine ⟨isFilled_documentWith _ _, fits_documentWith _ fits_heavyWeights, ?_⟩
  exact isNone_toOption_iff.mp (by decide +kernel)

end Config
end DecisionGate
