import DecisionGate.Belief.Validator
import DecisionGate.Proofs.Calculation

/-!
# Levels on their own

A request may name a level in many ways and many times, and all that becomes of it is the set of the
levels that it names. Each of these is scored by itself, from nothing but the content, and what a
result says is put together from the levels in the order of the catalog. So two requests for the
same levels have the same result, and what a result says of a level is what a request for that level
alone says of it.
-/
namespace DecisionGate.Belief

/-- What stands for a level: its name, in any case and between any blanks, or a number that equals
its code. -/
inductive Designates : Value → Level → Prop
  | name {s : String} {l : Level} :
      String.ofList (Text.upper (Text.trim s.toList)) = l.name → Designates (.str s) l
  | code {v : Value} {n : Number} {l : Level} :
      v.number? = some n → n.order (.int l.code) = some .eq → Designates v l

theorem Level.name_injective : Function.Injective Level.name := by
  intro l l' h
  cases l <;> cases l' <;> first | rfl | exact absurd h (by decide)

theorem Level.code_injective : Function.Injective Level.code := by
  intro l l' h
  cases l <;> cases l' <;> first | rfl | exact absurd h (by decide)

/-- No number equals two integers. -/
theorem eq_of_order {n : Number} {i j : Int} (hi : n.order (.int i) = some .eq)
    (hj : n.order (.int j) = some .eq) : i = j := by
  have hint : ∀ i : Int, Exact.ofNumber (.int i) = .rational i := fun _ => rfl
  rw [Exact.order_eq, hint] at hi hj
  generalize Exact.ofNumber n = a at hi hj
  cases a with
  | nan => cases hi
  | infinite negative => cases negative <;> cases hi
  | rational q =>
    simp only [Exact.compare, Option.some.injEq, cmp_eq_eq_iff] at hi hj
    exact_mod_cast hi.symm.trans hj

theorem Level.find?_eq_some {p : Level → Bool} {l : Level} (h : p l = true)
    (honly : ∀ l', p l' = true → l' = l) : Level.all.find? p = some l := by
  cases hfound : Level.all.find? p with
  | none => exact absurd h (by simpa using List.find?_eq_none.mp hfound l l.mem_all)
  | some l' => rw [honly l' (List.find?_some hfound)]

/-- Whether a value is a number that equals the code of a level. -/
def equalsCode (v : Value) (l : Level) : Bool :=
  match v.number? with
  | some n => n.order (.int l.code) == some .eq
  | none => false

theorem equalsCode_iff {v : Value} {l : Level} :
    equalsCode v l = true ↔ ∃ n, v.number? = some n ∧ n.order (.int l.code) = some .eq := by
  unfold equalsCode
  cases v.number? <;> simp

theorem ofValue_of_ne_str {v : Value} (h : ∀ s, v ≠ .str s) {l : Level} :
    Level.ofValue v = .ok l ↔ equalsCode v l = true := by
  have hfind : Level.ofValue v = .ok l ↔ Level.all.find? (equalsCode v) = some l := by
    generalize hfound : Level.all.find? (equalsCode v) = found
    cases v with
    | str s => exact absurd rfl (h s)
    | _ =>
      simp only [Level.ofValue]
      split
      · next hsome =>
        obtain rfl := hsome.symm.trans hfound
        rw [Except.ok.injEq, Option.some.injEq]
      · next hnone =>
        obtain rfl := hnone.symm.trans hfound
        simp
  rw [hfind]
  refine ⟨fun hfound => List.find?_some hfound, fun hl => ?_⟩
  refine Level.find?_eq_some hl fun l' hl' => ?_
  obtain ⟨n, hn, horder⟩ := equalsCode_iff.mp hl
  obtain ⟨n', hn', horder'⟩ := equalsCode_iff.mp hl'
  obtain rfl := Option.some.inj (hn.symm.trans hn')
  exact Level.code_injective (eq_of_order horder' horder)

theorem ofValue_iff {v : Value} {l : Level} : Level.ofValue v = .ok l ↔ Designates v l := by
  by_cases hstr : ∃ s, v = .str s
  · obtain ⟨s, rfl⟩ := hstr
    constructor
    · intro hok
      simp only [Level.ofValue] at hok
      generalize hname : String.ofList (Text.upper (Text.trim s.toList)) = name at hok
      split at hok
      · next hfound =>
        obtain rfl := Except.ok.inj hok
        have hsame := List.find?_some hfound
        exact .name (hname.trans (beq_iff_eq.mp hsame).symm)
      · cases hok
    · rintro (hname | ⟨hn, -⟩)
      · have hfound := Level.find?_eq_some (p := fun l' => l'.name == l.name) (l := l) (by simp)
          fun l' hl' => Level.name_injective (beq_iff_eq.mp hl')
        simp only [Level.ofValue, hname, hfound]
      · cases hn
  · have hne : ∀ s, v ≠ .str s := fun s hs => hstr ⟨s, hs⟩
    rw [ofValue_of_ne_str hne, equalsCode_iff]
    constructor
    · rintro ⟨n, hn, horder⟩
      exact .code hn horder
    · rintro (_ | ⟨hn, horder⟩)
      · exact absurd rfl (hne _)
      · exact ⟨_, hn, horder⟩

theorem Designates.unique {v : Value} {l l' : Level} (h : Designates v l) (h' : Designates v l') :
    l = l' :=
  Except.ok.inj ((ofValue_iff.mpr h).symm.trans (ofValue_iff.mpr h'))

/-- A request asks for the levels of a set: for all of them, or for those that its members stand
for, in any order and any number of times. -/
inductive Asks : Value → Finset Level → Prop
  | all {S : Finset Level} : (∀ l, l ∈ S) → Asks .null S
  | members {v : Value} {ms : List Value} {S : Finset Level} : v ≠ .null → v.members = .ok ms →
      (∀ m ∈ ms, ∃ l ∈ S, Designates m l) → (∀ l ∈ S, ∃ m ∈ ms, Designates m l) → Asks v S

theorem requested_null : requested .null = .ok Level.all := rfl

theorem requested_of_ne_null {v : Value} (h : v ≠ .null) :
    requested v = v.members >>= fun ms => ms.mapM Level.ofValue := by
  cases v with
  | null => exact absurd rfl h
  | _ => rfl

/-- A request asks for a set exactly when the levels of the set are read off it. -/
theorem asks_iff {v : Value} {S : Finset Level} :
    Asks v S ↔ ∃ ls, requested v = .ok ls ∧ ∀ l, l ∈ ls ↔ l ∈ S := by
  constructor
  · intro h
    cases h with
    | all hall => exact ⟨Level.all, rfl, fun l => iff_of_true l.mem_all (hall l)⟩
    | @members _ ms _ hne hms hfrom honto =>
      have hread : ¬ Fails (ms.mapM Level.ofValue) := by
        rw [fails_mapM]
        rintro ⟨m, hm, e, hfail⟩
        obtain ⟨l, -, hl⟩ := hfrom m hm
        cases hfail.symm.trans (ofValue_iff.mpr hl)
      cases hls : ms.mapM Level.ofValue with
      | error e => exact absurd ⟨e, hls⟩ hread
      | ok ls =>
        refine ⟨ls, by rw [requested_of_ne_null hne, hms, ok_bind, hls], fun l => ?_⟩
        rw [mem_of_mapM_ok hls]
        constructor
        · rintro ⟨m, hm, hl⟩
          obtain ⟨l', hl', hdesignates⟩ := hfrom m hm
          exact hdesignates.unique (ofValue_iff.mp hl) ▸ hl'
        · intro hl
          obtain ⟨m, hm, hdesignates⟩ := honto l hl
          exact ⟨m, hm, ofValue_iff.mpr hdesignates⟩
  · rintro ⟨ls, hls, hmem⟩
    by_cases hne : v = .null
    · subst hne
      obtain rfl := Except.ok.inj (requested_null.symm.trans hls)
      exact .all fun l => (hmem l).mp l.mem_all
    · rw [requested_of_ne_null hne] at hls
      obtain ⟨ms, hms, hread⟩ := bind_eq_ok.mp hls
      refine .members hne hms (fun m hm => ?_) fun l hl => ?_
      · obtain ⟨l, hl, hm⟩ := exists_of_mapM_ok hread hm
        exact ⟨l, (hmem l).mp hl, ofValue_iff.mp hm⟩
      · obtain ⟨m, hm, hl⟩ := (mem_of_mapM_ok hread l).mp ((hmem l).mpr hl)
        exact ⟨m, hm, ofValue_iff.mp hl⟩

/-- What a content is searched as. -/
def searchText (content : Value) : String := lowered (contentText content)

theorem written_eq_ok {content : Value} {text : String} :
    written content = .ok text ↔ textFailure? content = none ∧ contentText content = text := by
  unfold written
  cases textFailure? content <;> simp

/-- What a level scores for a content, whatever else is asked for. -/
def levelScore (content : Value) (l : Level) : LevelScore :=
  scoreLevel (spec l) (searchText content)

/-- The levels of a set from the deepest up. -/
def inOrder (S : Finset Level) : List Level := Level.all.filter fun l => l ∈ S

theorem mem_inOrder {S : Finset Level} {l : Level} : l ∈ inOrder S ↔ l ∈ S := by
  simp [inOrder, l.mem_all]

theorem length_inOrder (S : Finset Level) : (inOrder S).length = S.card := by
  have hnodup : (inOrder S).Nodup := List.Nodup.filter _ (by decide)
  have hset : (inOrder S).toFinset = S := by
    ext l
    rw [List.mem_toFinset, mem_inOrder]
  rw [← List.toFinset_card_of_nodup hnodup, hset]

theorem scoreLevels_eq {ls : List Level} {S : Finset Level} (h : ∀ l, l ∈ ls ↔ l ∈ S)
    (text : String) :
    scoreLevels ls text = (inOrder S).map fun l => (l, scoreLevel (spec l) text) := by
  have hfilter : Level.all.filter (fun l => ls.contains l) = inOrder S := by
    refine List.filter_congr fun l _ => ?_
    simp [h l]
  rw [scoreLevels, hfilter]

theorem score_congr {ls ls' : List Level} {S : Finset Level} (h : ∀ l, l ∈ ls ↔ l ∈ S)
    (h' : ∀ l, l ∈ ls' ↔ l ∈ S) (text : String) (minimum : Value) (strict : Bool) :
    score text ls minimum strict = score text ls' minimum strict := by
  simp only [score, scoreLevels_eq h, scoreLevels_eq h']

/-- A text occurs in what a content is searched as. -/
def Occurs (needle : String) (content : Value) : Prop :=
  needle.toList <:+: (searchText content).toList

theorem contains_iff {needle : String} {content : Value} :
    Text.contains (searchText content) needle = true ↔ Occurs needle content :=
  Text.occursIn_iff_infix _ _

theorem hits_pos_iff {content : Value} {keywords : List String} :
    0 < hits (searchText content) keywords ↔ ∃ k ∈ keywords, Occurs k content := by
  simp only [hits, List.countP_pos_iff, contains_iff]

/-- A marker occurs, and no keyword of the belief that it speaks against. -/
structure Vetoes (rule : VetoRule) (beliefs : List Entry) (content : Value) : Prop where
  marked : ∃ m ∈ rule.markers, Occurs m content
  unopposed : ∀ e ∈ beliefs, e.key = rule.belief → ∀ k ∈ e.keywords, ¬ Occurs k content

theorem triggered_iff {rule : VetoRule} {s : LevelSpec} {content : Value} :
    rule.triggered s (searchText content) = true ↔ Vetoes rule s.beliefs content := by
  have hopposed : ((matched s (searchText content)).any fun e => e.key == rule.belief) = true ↔
      ∃ e ∈ s.beliefs, e.key = rule.belief ∧ ∃ k ∈ e.keywords, Occurs k content := by
    simp only [matched, List.any_eq_true, List.mem_filter, decide_eq_true_eq, hits_pos_iff,
      beq_iff_eq]
    exact exists_congr fun e => by tauto
  have hmarked : rule.markers.any (Text.contains (searchText content)) = true ↔
      ∃ m ∈ rule.markers, Occurs m content := by
    simp only [List.any_eq_true, contains_iff]
  rw [VetoRule.triggered, Bool.and_eq_true, Bool.not_eq_true', ← Bool.not_eq_true, hopposed,
    hmarked]
  constructor
  · rintro ⟨hnone, hsome⟩
    exact ⟨hsome, fun e he hkey k hk hoccurs => hnone ⟨e, he, hkey, k, hk, hoccurs⟩⟩
  · rintro ⟨hsome, hnone⟩
    exact ⟨fun ⟨e, he, hkey, k, hk, hoccurs⟩ => hnone e he hkey k hk hoccurs, hsome⟩

/-- No level has a rule for a veto but the social one. -/
theorem levelScore_veto {content : Value} {l : Level} : (levelScore content l).veto = true ↔
    l = .social ∧ Vetoes socialVeto socialSpec.beliefs content := by
  have hany : (levelScore content l).veto =
      (spec l).veto.any fun rule => rule.triggered (spec l) (searchText content) := by
    simp [levelScore, scoreLevel, vetoOf?]
  rw [hany]
  cases l with
  | social =>
    have hrule : (spec .social).veto = some socialVeto := rfl
    rw [hrule, Option.any_some, triggered_iff]
    exact (and_iff_right rfl).symm
  | existential | epistemological | operational => exact iff_of_false nofun nofun

/-- The findings of a level do not name it. -/
theorem level_of_finding {content : Value} {l : Level} {f : Finding}
    (h : f ∈ (levelScore content l).violations ∨ f ∈ (levelScore content l).strengths) :
    f.level = none := by
  simp only [levelScore, scoreLevel, List.mem_append, List.mem_map] at h
  rcases h with (⟨p, -, rfl⟩ | ⟨rule, -, rfl⟩) | ⟨e, -, rfl⟩ <;> rfl

/-- A finding of a level, with the level. -/
def Finding.at (f : Finding) (l : Level) : Finding := { f with level := some l }

/-- What a result for a set of levels is made of. -/
structure Composed (content : Value) (S : Finset Level) (r : Result) : Prop where
  levels : r.levels = (inOrder S).map fun l => (l, levelScore content l)
  unnamed : ∀ p ∈ r.levels, ∀ f, f ∈ p.2.violations ∨ f ∈ p.2.strengths → f.level = none
  overall : r.overall =
    ((inOrder S).map fun l => (levelScore content l).score).foldl (· + ·) 0.0 / Float.ofNat S.card
  violations : r.violations =
    (inOrder S).flatMap fun l => (levelScore content l).violations.map fun f => f.at l
  strengths : r.strengths =
    (inOrder S).flatMap fun l => (levelScore content l).strengths.map fun f => f.at l
  veto : r.veto = true ↔ .social ∈ S ∧ Vetoes socialVeto socialSpec.beliefs content

section
variable {v : Validator} {content levels minimum strict : Value} {S : Finset Level} {r : Result}

theorem levels_of_requested {ls : List Level} (hls : requested levels = .ok ls)
    (hr : (v.validate content levels minimum strict).value.1 = .ok r) :
    r.levels = scoreLevels ls (searchText content) ∧ r.overall = overallOf r.levels := by
  simp only [Validator.validate_value, hls] at hr
  split at hr
  · cases hr
  · next hwritten =>
    obtain ⟨-, rfl⟩ := written_eq_ok.mp hwritten
    split at hr
    · cases hr
    · next hscore =>
      obtain ⟨_, -, hr'⟩ := bind_eq_ok.mp hscore
      rw [← Except.ok.inj hr, ← Except.ok.inj hr']
      exact ⟨rfl, rfl⟩

theorem levels_of_asks (h : Asks levels S)
    (hr : (v.validate content levels minimum strict).value.1 = .ok r) :
    r.levels = (inOrder S).map (fun l => (l, levelScore content l)) ∧
      r.overall = overallOf r.levels := by
  obtain ⟨ls, hls, hmem⟩ := asks_iff.mp h
  obtain ⟨hlevels, hoverall⟩ := levels_of_requested hls hr
  exact ⟨hlevels.trans (scoreLevels_eq hmem (searchText content)), hoverall⟩

theorem composed_of_asks (hS : S.Nonempty) (h : Asks levels S)
    (hr : (v.validate content levels minimum strict).value.1 = .ok r) :
    Composed content S r := by
  obtain ⟨hlevels, hoverall⟩ := levels_of_asks h hr
  have hne : inOrder S ≠ [] := by
    obtain ⟨l, hl⟩ := hS
    exact List.ne_nil_of_mem (mem_inOrder.mpr hl)
  exact {
    levels := hlevels
    unnamed := by
      intro p hp f hf
      rw [hlevels] at hp
      obtain ⟨l, -, rfl⟩ := List.mem_map.mp hp
      exact level_of_finding hf
    overall := by
      rw [hoverall, hlevels, overallOf, if_neg (by simpa using hne), List.foldl_map,
        List.foldl_map, List.length_map, length_inOrder]
    violations := by
      rw [Result.violations, hlevels, List.flatMap_map]
      rfl
    strengths := by
      rw [Result.strengths, hlevels, List.flatMap_map]
      rfl
    veto := by
      simp only [Result.veto, hlevels, List.any_map, List.any_eq_true, mem_inOrder,
        Function.comp_apply, levelScore_veto]
      constructor
      · rintro ⟨l, hl, rfl, hvetoes⟩
        exact ⟨hl, hvetoes⟩
      · rintro ⟨hl, hvetoes⟩
        exact ⟨.social, hl, rfl, hvetoes⟩ }

/-- The least score of a validation: the one that is given, else the validator's own. -/
def Validator.least (v : Validator) (minimum : Value) : Value :=
  if minimum.isNull then v.minimum else minimum

theorem recommend_answers (overall : Float) (veto strict : Bool) (h : minimum.IsConvertible) :
    ∃ a, recommend overall veto minimum strict = .ok a := by
  have hoverall : (Value.float overall).IsConvertible := ⟨.float overall, overall, rfl, rfl⟩
  obtain ⟨reached, hreached, -⟩ := Value.gives_compare .ge hoverall h
  obtain ⟨lower, hlower, hdouble⟩ := Value.gives_mul h ⟨_, _, rfl, rfl⟩ (.inr ⟨0.8, rfl⟩)
  obtain ⟨near, hnear, -⟩ := Value.gives_compare .ge hoverall hdouble.isConvertible
  simp only [recommend, hreached, hlower, hnear, ok_bind]
  split
  · exact ⟨_, rfl⟩
  · split
    · exact ⟨_, rfl⟩
    · split <;> exact ⟨_, rfl⟩

/-- With a least score that a double holds, a content has a result if it has a text. -/
theorem validate_answers_iff (h : Asks levels S) (hleast : (v.least minimum).IsConvertible) :
    (∃ r, (v.validate content levels minimum strict).value.1 = .ok r) ↔
      textFailure? content = none := by
  obtain ⟨ls, hls, -⟩ := asks_iff.mp h
  let scores := scoreLevels ls (lowered (contentText content))
  obtain ⟨a, ha⟩ := recommend_answers (overallOf scores) (scores.any fun p => p.2.veto)
    (if strict.isNull then v.strict else strict.isTruthy) hleast
  have hscore : score (contentText content) ls (v.least minimum)
      (if strict.isNull then v.strict else strict.isTruthy) =
        .ok ⟨overallOf scores, scores, a⟩ := by
    simp only [score, scores, ha, ok_bind]
  simp only [Validator.least] at hscore
  simp only [Validator.validate_value, hls, written]
  cases textFailure? content with
  | none => simp [hscore]
  | some f => simp

theorem inOrder_singleton (l : Level) : inOrder {l} = [l] := by
  cases l <;> decide

end

/-- Two requests for the same levels come to the same, whatever the content, the least score and
the strictness are, and where a double holds the least score there is a result exactly for a content
that can be written. The result has the levels of the set in the order of the catalog, each with
what it scores in any request for it alone; the overall score is the mean of these, the findings
follow one another level by level, and there is a veto exactly when the social level is asked for
and a marker of its rule occurs without any keyword of the belief. -/
theorem levels_independent (v : Validator) (content minimum strict : Value) {S : Finset Level}
    (hS : S.Nonempty) {levels levels' : Value} (h : Asks levels S) (h' : Asks levels' S) :
    v.validate content levels minimum strict = v.validate content levels' minimum strict ∧
      ((v.least minimum).IsConvertible →
        ((∃ r, (v.validate content levels minimum strict).value.1 = .ok r) ↔
          textFailure? content = none)) ∧
      ∀ r, (v.validate content levels minimum strict).value.1 = .ok r →
        Composed content S r ∧
          ∀ l ∈ S, (l, levelScore content l) ∈ r.levels ∧
            ∀ (other : Validator) (alone minimum strict : Value) (one : Result), Asks alone {l} →
              (other.validate content alone minimum strict).value.1 = .ok one →
              one.levels = [(l, levelScore content l)] := by
  refine ⟨?_, validate_answers_iff h, fun r hr => ?_⟩
  · obtain ⟨ls, hls, hmem⟩ := asks_iff.mp h
    obtain ⟨ls', hls', hmem'⟩ := asks_iff.mp h'
    simp only [Validator.validate, hls, hls', score_congr hmem hmem']
  · have hcomposed := composed_of_asks hS h hr
    refine ⟨hcomposed, fun l hl => ⟨?_, fun other alone minimum strict one halone hone => ?_⟩⟩
    · rw [hcomposed.levels]
      exact List.mem_map_of_mem (mem_inOrder.mpr hl)
    · rw [(levels_of_asks halone hone).1, inOrder_singleton]
      rfl

/-- The two levels, once by a name and a code, once by a name, a number and the name again. -/
theorem levels_independent_named :
    Asks (.list [.str " social", .int (-4)]) {.existential, .social} ∧
      Asks (.list [.str "Social", .float (-4.0), .str "SOCIAL"]) {.existential, .social} ∧
      ∀ content : Value,
        ({} : Validator).validate content (.list [.str " social", .int (-4)]) .null .null =
            ({} : Validator).validate content
              (.list [.str "Social", .float (-4.0), .str "SOCIAL"]) .null .null ∧
          (textFailure? content = none →
            ∃ r, (({} : Validator).validate content (.list [.str " social", .int (-4)])
                .null .null).value.1 = .ok r ∧
              Composed content {.existential, .social} r) := by
  have hfirst : Asks (.list [.str " social", .int (-4)]) {.existential, .social} :=
    asks_iff.mpr ⟨[.social, .existential], by rfl, by intro l; cases l <;> decide⟩
  have hsecond : Asks (.list [.str "Social", .float (-4.0), .str "SOCIAL"])
      {.existential, .social} :=
    asks_iff.mpr
      ⟨[.social, .existential, .social], by rfl, by intro l; cases l <;> decide⟩
  refine ⟨hfirst, hsecond, fun content => ?_⟩
  obtain ⟨hsame, hanswers, hresults⟩ :=
    levels_independent {} content .null .null ⟨.social, by decide⟩ hfirst hsecond
  refine ⟨hsame, fun hwritten => ?_⟩
  obtain ⟨r, hr⟩ := (hanswers ⟨.float 7.0, 7.0, rfl, rfl⟩).mpr hwritten
  exact ⟨r, hr, (hresults r hr).1⟩

end DecisionGate.Belief
