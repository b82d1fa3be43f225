import DecisionGate.Proofs.Report

/-!
# What a structural validator cannot report

The validators take scores of dimensions and names of tasks out of a context. This module says
exactly when one of them fails with a failure that is none of the library's own: on a score that no
double holds, on a content to be scored that cannot be written, and on a name that cannot be shown.
What they refuse before that is reported instead.
-/
namespace DecisionGate

namespace Gate

/-- The score that a dimension is given can be taken: none, or a number that a double holds. -/
def Scorable (v : Value) : Prop := v = .null ∨ v.isNumber = true ∧ ¬ TooLarge v

theorem dimensionScore_number {provided : Entries} {name : String}
    (h : ((provided.get? name).getD .null).isNumber = true) :
    ∃ n, ((provided.get? name).getD .null).number? = some n ∧
      dimensionScore provided name = liftFault n.toDouble := by
  obtain ⟨n, hn⟩ := number?_of_isNumber h
  refine ⟨n, hn, ?_⟩
  unfold dimensionScore
  split
  · next hnull => simp [hnull, Value.isNumber] at h
  · simp [h, hn]

theorem dimensionScore_other {provided : Entries} {name : String}
    (h : ((provided.get? name).getD .null).isNumber = false) :
    dimensionScore provided name =
      if ((provided.get? name).getD .null).isNull then .ok defaultDimensionScore
      else .error (refused s!"Score for {name} must be a number" name) := by
  unfold dimensionScore
  cases hv : (provided.get? name).getD .null <;> simp_all [Value.isNull, Value.isNumber]

theorem dimensionScore_fails (provided : Entries) (name : String) :
    Fails (dimensionScore provided name) ↔ ¬ Scorable ((provided.get? name).getD .null) := by
  cases h : ((provided.get? name).getD .null).isNumber with
  | true =>
    obtain ⟨n, hn, hscore⟩ := dimensionScore_number h
    have hnull : (provided.get? name).getD .null ≠ .null := by
      intro hnull
      simp [hnull, Value.isNumber] at h
    simp [hscore, liftFault, fails_toDouble h hn, Scorable, hnull, h]
  | false =>
    rw [dimensionScore_other h]
    cases hv : (provided.get? name).getD .null <;> simp_all [Scorable, Value.isNull]

theorem dimensionScore_escapes (provided : Entries) (name : String) :
    Escapes (dimensionScore provided name) ↔ TooLarge ((provided.get? name).getD .null) := by
  cases h : ((provided.get? name).getD .null).isNumber with
  | true =>
    obtain ⟨n, hn, hscore⟩ := dimensionScore_number h
    rw [hscore, escapes_iff_fails (liftFault_foreign _)]
    simp [liftFault, fails_toDouble h hn]
  | false =>
    rw [dimensionScore_other h]
    split <;> simp [not_tooLarge h, refused, Failure.isDomain]

/-- The dimensions that a checkpoint asks for. -/
def asked (c : Checkpoint) : List String :=
  if c.dimensions.isEmpty then defaultDimensions else c.dimensions

/-- The first given score that cannot be taken is a number that is too large. -/
def OversizedScore (c : Checkpoint) (provided : Value) : Prop :=
  ∃ (entries : Entries) (before : List String) (name : String) (after : List String),
    provided = .map entries ∧ asked c = before ++ name :: after ∧
    (∀ m ∈ before, Scorable ((entries.get? m).getD .null)) ∧
    TooLarge ((entries.get? name).getD .null)

/-- A dimension of a mapping of scores, with its name. -/
def namedScore (entries : Entries) (name : String) : Except Failure (String × Float) :=
  (dimensionScore entries name).map fun x => (name, x)

theorem providedDimensions_map (c : Checkpoint) (entries : Entries) :
    Escapes (providedDimensions c (.map entries)) ↔
      Escapes ((asked c).mapM (namedScore entries)) := by
  have hmap : providedDimensions c (.map entries) = (do
      let scores ← (asked c).mapM (namedScore entries)
      .ok (scores.foldl (fun acc d => putNamed d.1 d.2 acc) [])) := rfl
  rw [hmap, escapes_bind]
  simp

theorem escapes_namedScores (c : Checkpoint) (entries : Entries) :
    Escapes ((asked c).mapM (namedScore entries)) ↔ OversizedScore c (.map entries) := by
  rw [escapes_mapM]
  simp only [namedScore, fails_map, escapes_map, dimensionScore_fails, dimensionScore_escapes,
    Classical.not_not]
  constructor
  · intro h
    obtain ⟨before, name, after, hsplit, hok, hlarge⟩ := h
    exact ⟨entries, before, name, after, rfl, hsplit, hok, hlarge⟩
  · intro h
    obtain ⟨entries', before, name, after, heq, hsplit, hok, hlarge⟩ := h
    obtain rfl : entries = entries' := Value.map.inj heq
    exact ⟨before, name, after, hsplit, hok, hlarge⟩

/-- Without scores every dimension has the default one. -/
theorem not_oversizedScore_nil (c : Checkpoint) : ¬ OversizedScore c (.map []) := by
  intro h
  obtain ⟨entries, before, name, after, heq, -, -, i, hi, -⟩ := h
  obtain rfl : [] = entries := Value.map.inj heq
  simp [Entries.get?, Entries.find?] at hi

/-- What is no mapping counts as none, or is refused. -/
theorem providedDimensions_other (c : Checkpoint) {provided : Value}
    (h : provided.entries? = none) :
    providedDimensions c provided =
      if provided.isTruthy then
        .error (refused "axiom_scores must be a mapping of dimension -> score" "axiom_scores")
      else providedDimensions c (.map []) := by
  cases provided with
  | map es => cases h
  | _ =>
    simp only [providedDimensions]
    split <;> rfl

theorem providedDimensions_escapes (c : Checkpoint) (provided : Value) :
    Escapes (providedDimensions c provided) ↔ OversizedScore c provided := by
  cases hentries : provided.entries? with
  | some entries =>
    obtain rfl : provided = .map entries := by
      cases provided <;> simp_all [Value.entries?]
    rw [providedDimensions_map, escapes_namedScores]
  | none =>
    have hnot : ¬ OversizedScore c provided := by
      intro h
      obtain ⟨entries, -, -, -, rfl, -⟩ := h
      cases hentries
    rw [providedDimensions_other c hentries]
    split
    · simp [hnot, refused, Failure.isDomain]
    · rw [providedDimensions_map, escapes_namedScores]
      simp [hnot, not_oversizedScore_nil]

theorem recommend_ok (overall x : Float) (veto strict : Bool) :
    ∃ r, Belief.recommend overall veto (.float x) strict = .ok r := by
  have hmul : (Value.float x).mul (.float 0.8) = .ok (.float (x * 0.8)) := rfl
  have hcompare : ∀ y, Value.compare .ge (.float overall) (.float y) =
      .ok ((Number.float overall).compare .ge (.float y)) := fun _ => rfl
  simp only [Belief.recommend, hmul, hcompare, ok_bind]
  split
  · exact ⟨_, rfl⟩
  · split
    · exact ⟨_, rfl⟩
    · split <;> exact ⟨_, rfl⟩

mutual

/-- A content can be written exactly if every integer in it is short enough and it comes to an
end. -/
theorem textFailure?_eq_none_iff (v : Value) :
    Belief.textFailure? v = none ↔ v.hasText = true ∧ v.isEndless true = false := by
  match v with
  | .int i => simp [Belief.textFailure?, Value.hasText, Value.isEndless]
  | .list xs =>
    rw [Belief.textFailure?, Value.hasText, Value.isEndless]
    exact itemsFailure?_eq_none_iff xs
  | .map es =>
    rw [Belief.textFailure?, Value.hasText, Value.isEndless]
    exact membersFailure?_eq_none_iff es
  | .null | .bool _ | .float _ | .str _ | .endless _ =>
    simp [Belief.textFailure?, Value.hasText, Value.isEndless]

theorem itemsFailure?_eq_none_iff (xs : List Value) :
    Belief.itemsFailure? xs = none ↔
      Value.itemsHaveText xs = true ∧ Value.isAnyEndless true xs = false := by
  match xs with
  | [] => simp [Belief.itemsFailure?, Value.itemsHaveText, Value.isAnyEndless]
  | v :: rest =>
    simp only [Belief.itemsFailure?, Value.itemsHaveText, Value.isAnyEndless, Option.or_eq_none_iff,
      Bool.and_eq_true, Bool.or_eq_false_iff, textFailure?_eq_none_iff v,
      itemsFailure?_eq_none_iff rest]
    exact and_and_and_comm

theorem membersFailure?_eq_none_iff (es : List (Key × Value)) :
    Belief.membersFailure? es = none ↔
      Value.entriesHaveText es = true ∧ Value.isEntryEndless true es = false := by
  match es with
  | [] => simp [Belief.membersFailure?, Value.entriesHaveText, Value.isEntryEndless]
  | (k, v) :: rest =>
    cases hk : k.hasText with
    | false => simp [Belief.membersFailure?, Value.entriesHaveText, hk]
    | true =>
      simp only [Belief.membersFailure?, Value.entriesHaveText, Value.isEntryEndless, hk, if_true,
        Bool.true_and, Option.or_eq_none_iff, Bool.and_eq_true, Bool.or_eq_false_iff,
        textFailure?_eq_none_iff v, membersFailure?_eq_none_iff rest]
      exact and_and_and_comm

end

mutual

theorem textFailure?_isDomain {v : Value} {f : Failure} (h : Belief.textFailure? v = some f) :
    f.isDomain = false := by
  cases v with
  | int i =>
    rw [Belief.textFailure?] at h
    split at h
    · cases h
    · cases h
      rfl
  | list xs =>
    rw [Belief.textFailure?] at h
    exact itemsFailure?_isDomain h
  | map es =>
    rw [Belief.textFailure?] at h
    exact membersFailure?_isDomain h
  | endless apart =>
    rw [Belief.textFailure?] at h
    cases h
    rfl
  | _ => simp [Belief.textFailure?] at h

theorem itemsFailure?_isDomain {xs : List Value} {f : Failure}
    (h : Belief.itemsFailure? xs = some f) : f.isDomain = false := by
  match xs with
  | [] => simp [Belief.itemsFailure?] at h
  | v :: rest =>
    rw [Belief.itemsFailure?] at h
    rcases Option.or_eq_some_iff.mp h with hv | ⟨-, hrest⟩
    · exact textFailure?_isDomain hv
    · exact itemsFailure?_isDomain hrest

theorem membersFailure?_isDomain {es : List (Key × Value)} {f : Failure}
    (h : Belief.membersFailure? es = some f) : f.isDomain = false := by
  match es with
  | [] => simp [Belief.membersFailure?] at h
  | (k, v) :: rest =>
    rw [Belief.membersFailure?] at h
    split at h
    · rcases Option.or_eq_some_iff.mp h with hv | ⟨-, hrest⟩
      · exact textFailure?_isDomain hv
      · exact membersFailure?_isDomain hrest
    · obtain rfl := Option.some.inj h
      rfl

end

/-- A validator whose least score is a double validates every content that can be written, and
passes on what keeps any other from it. -/
theorem validate_fails_iff {validator : Belief.Validator} {x : Float}
    (h : validator.minimum = .float x) (content : Value) :
    Escapes (validator.validate content .null .null .null).value.1 ↔
      Belief.textFailure? content ≠ none := by
  obtain ⟨r, hr⟩ : ∃ r, Belief.score (Belief.contentText content) Belief.Level.all (.float x)
      validator.strict = .ok r := by
    let text := Belief.lowered (Belief.contentText content)
    obtain ⟨r, hr⟩ := recommend_ok
      (Belief.overallOf (Belief.scoreLevels Belief.Level.all text)) x
      ((Belief.scoreLevels Belief.Level.all text).any fun p => p.2.veto) validator.strict
    simp only [Belief.score, text, hr, ok_bind]
    exact ⟨_, rfl⟩
  simp only [Belief.Validator.validate_value, Belief.requested, Value.isNull, h, if_true,
    Belief.written]
  cases hfailure : Belief.textFailure? content with
  | none => simp [hr]
  | some f => simp [textFailure?_isDomain hfailure]

/-- The scores that a context gives, under either name. -/
def givenScores (context : Entries) : Value :=
  match context.get? "axiom_scores" with
  | some v => v
  | none => (context.get? "axioma").getD .null

/-- A content that has to be scored, since no scores are given, and cannot be written: there is an
integer in it that is too long, or it holds itself. -/
def UnwrittenContent (context : Entries) : Prop :=
  ∃ content, givenScores context = .null ∧ context.get? "content" = some content ∧
    (content.hasText = false ∨ content.isEndless true = true)

theorem runBeliefs_escapes (g : Gate) {x : Float} (h : g.validator.minimum = .float x)
    (c : Checkpoint) (criteria : List Criteria.Criterion) (context : Entries) :
    Escapes (g.runBeliefs c criteria context).value.1 ↔
      UnwrittenContent context ∨ OversizedScore c (givenScores context) := by
  simp only [runBeliefs]
  split
  · next content hnull hcontent =>
    have hnull : givenScores context = .null := hnull
    have hnot : ¬ OversizedScore c .null := by
      intro hx
      obtain ⟨entries, -, -, -, heq, -⟩ := hx
      cases heq
    have hunwritten : UnwrittenContent context ↔
        content.hasText = false ∨ content.isEndless true = true := by
      simp [UnwrittenContent, hnull, hcontent]
    rw [Report.value_bind, hnull, or_iff_left hnot, hunwritten, ← Bool.not_eq_true,
      ← Bool.not_eq_false (content.isEndless true), ← not_and_or, ← textFailure?_eq_none_iff,
      ← Ne, ← validate_fails_iff h content]
    exact escapes_map
  · next hother =>
    have hwritten : ¬ UnwrittenContent context := by
      intro hx
      obtain ⟨content, hnull, hcontent, -⟩ := hx
      exact hother content hnull hcontent
    rw [or_iff_right hwritten]
    simp only [Report.value_pure, escapes_map]
    exact providedDimensions_escapes c (givenScores context)

/-- The name that a task gives, under either name. -/
def givenName? (task : Entries) : Option Value :=
  ([task.get? "name", task.get? "Name"].filterMap id).find? Value.isTruthy

/-- A task that misses a field and has a name that cannot be shown. -/
def Unnameable (required : List String) (task : Entries) : Prop :=
  (∃ field ∈ required, hasField task field = false) ∧
    ∃ name, givenName? task = some name ∧ name.hasText = false

theorem hasText_taskName (index : Nat) (task : Entries) :
    (taskName index task).hasText = false ↔
      ∃ name, givenName? task = some name ∧ name.hasText = false := by
  have hname : taskName index task = (givenName? task).getD (.str s!"Task {index + 1}") := rfl
  rw [hname]
  cases givenName? task <;> simp [Value.hasText]

theorem incomplete?_map (required : List String) (index : Nat) (task : Entries) :
    Fails (incomplete? required index (.map task)) ↔ Unnameable required task := by
  simp only [incomplete?, Unnameable, ← hasText_taskName index]
  split
  · next hall =>
    simp_all
  · next hsome =>
    rw [fails_map, shown_fails]
    simp_all

theorem incomplete?_foreign (required : List String) (index : Nat) (task : Entries) :
    Foreign (incomplete? required index (.map task)) := by
  simp only [incomplete?]
  split
  · exact foreign_ok _
  · exact foreign_map (shown_foreign _)

/-- The fields that a checkpoint wants of every task. -/
def wanted (c : Checkpoint) : List String :=
  if c.requiredFields.isEmpty then defaultTaskFields else c.requiredFields

/-- The first task that cannot be reported is one that misses a field and cannot be named. -/
def UnnamedTask (c : Checkpoint) (context : Entries) : Prop :=
  ∃ before task after,
    (context.get? "tasks").getD .null = .list (before ++ .map task :: after) ∧
    (∀ v ∈ before, ∃ es, v = .map es ∧ ¬ Unnameable (wanted c) es) ∧
    Unnameable (wanted c) task

/-- A task with its place. -/
def placedTask (required : List String) (p : Value × Nat) :
    Except Failure (Option (String × List String)) :=
  incomplete? required p.2 p.1

theorem placedTask_fails (required : List String) (p : Value × Nat) :
    ¬ Fails (placedTask required p) ↔ ∃ es, p.1 = .map es ∧ ¬ Unnameable required es := by
  obtain ⟨v, i⟩ := p
  cases v with
  | map es => simp [placedTask, incomplete?_map]
  | _ => simp [placedTask, incomplete?]

theorem placedTask_escapes (required : List String) (p : Value × Nat) :
    Escapes (placedTask required p) ↔ ∃ es, p.1 = .map es ∧ Unnameable required es := by
  obtain ⟨v, i⟩ := p
  cases v with
  | map es =>
    rw [placedTask, escapes_iff_fails (incomplete?_foreign required i es), incomplete?_map]
    simp
  | _ => simp [placedTask, incomplete?, refused, Failure.isDomain]

theorem runTasks_list {c : Checkpoint} {context : Entries} {tasks : List Value}
    (h : (context.get? "tasks").getD .null = .list tasks) :
    Escapes (runTasks c context) ↔ Escapes (tasks.zipIdx.mapM (placedTask (wanted c))) := by
  have hbind : ∃ finish : List (Option (String × List String)) → Outcome, runTasks c context =
      tasks.zipIdx.mapM (placedTask (wanted c)) >>= fun found => .ok (finish found) := by
    simp only [runTasks, h, orEmpty_list]
    exact ⟨_, rfl⟩
  obtain ⟨finish, hbind⟩ := hbind
  rw [hbind, escapes_bind]
  simp

theorem runTasks_escapes (c : Checkpoint) (context : Entries) :
    Escapes (runTasks c context) ↔ UnnamedTask c context := by
  cases hitems : ((context.get? "tasks").getD .null).items? with
  | some tasks =>
    have hlist := eq_list_of_items? hitems
    -- The place of a task counts for its name only, not for whether it can be reported.
    have hplaces : ∀ before : List Value,
        (∀ p ∈ before.zipIdx, ∃ es, p.1 = .map es ∧ ¬ Unnameable (wanted c) es) ↔
          ∀ v ∈ before, ∃ es, v = .map es ∧ ¬ Unnameable (wanted c) es := fun before =>
      forall_mem_zipIdx (p := fun v => ∃ es, v = Value.map es ∧ ¬ Unnameable (wanted c) es)
    rw [runTasks_list hlist, escapes_mapM_zipIdx]
    simp only [placedTask_fails, placedTask_escapes, UnnamedTask, hlist, hplaces]
    constructor
    · intro h
      obtain ⟨before, -, after, rfl, hok, task, rfl, hbad⟩ := h
      exact ⟨before, task, after, rfl, hok, hbad⟩
    · intro h
      obtain ⟨before, task, after, htasks, hok, hbad⟩ := h
      exact ⟨before, .map task, after, Value.list.inj htasks, hok, task, rfl, hbad⟩
  | none =>
    have hnot : ¬ UnnamedTask c context := by
      intro h
      obtain ⟨before, task, after, hlist, -⟩ := h
      simp [hlist, Value.items?] at hitems
    simp only [runTasks, orEmpty_other hitems]
    cases ((context.get? "tasks").getD .null).isTruthy with
    | true => simp [hnot, refused, Failure.isDomain]
    | false => simp [hnot, pure, Except.pure]

end Gate

end DecisionGate
