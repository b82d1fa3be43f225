import DecisionGate.Proofs.MemoTable
import DecisionGate.Proofs.Structure

/-!
# The two reports on tasks

A check of tasks reports every faulty task twice: as a veto, one after the other, and in a table of
missing fields under the name of the task. The vetoes lose nothing. The table has one place for a
name, and keeps the fields of the last faulty task that goes by it; so it says the same as the
vetoes exactly when faulty tasks of one name lack the same fields. A task that calls itself as
another one is numbered counts as one of its name.
-/
namespace DecisionGate.Gate

variable {c : Checkpoint} {context : Entries} {required : List String} {o : Outcome}

/-- There is nothing of worth under the name of a field, nor under its name in small letters. -/
def Lacks (task : Entries) (field : String) : Prop :=
  ∀ name ∈ [field, String.ofList (Text.lower field.toList)],
    ∀ v, task.get? name = some v → v.isTruthy = false

theorem worthless_iff {v? : Option Value} :
    (∀ v, v? = some v → v.isTruthy = false) ↔ (v?.getD .null).isTruthy = false := by
  cases v? <;> simp [Value.isTruthy]

theorem lacks_iff {task : Entries} {field : String} :
    Lacks task field ↔ hasField task field = false := by
  simp only [Lacks, List.forall_mem_cons, List.not_mem_nil, false_implies, implies_true, and_true,
    worthless_iff, hasField, Bool.or_eq_false_iff]

instance (task : Entries) : DecidablePred (Lacks task) := fun _ => decidable_of_iff _ lacks_iff.symm

/-- The fields that a task lacks, in the order in which they are required. -/
def lacking (required : List String) (task : Entries) : List String :=
  required.filter fun field => Lacks task field

/-- The tasks that lack a field, each with its place. -/
def faulty (required : List String) (tasks : List Entries) (first : Nat := 0) :
    List (Entries × Nat) :=
  (tasks.zipIdx first).filter fun p => ∃ field ∈ required, Lacks p.1 field

/-- How many tasks lack nothing. -/
def completeCount (required : List String) (tasks : List Entries) : Nat :=
  tasks.countP fun task => ∀ field ∈ required, ¬ Lacks task field

theorem lacking_eq (required : List String) (task : Entries) :
    lacking required task = required.filter fun field => !hasField task field := by
  refine List.filter_congr fun field _ => ?_
  simp [lacks_iff]

theorem lacking_eq_nil_iff {task : Entries} :
    lacking required task = [] ↔ ¬ ∃ field ∈ required, Lacks task field := by
  simp [lacking, List.filter_eq_nil_iff]

theorem faulty_cons (required : List String) (task : Entries) (tasks : List Entries) (first : Nat) :
    faulty required (task :: tasks) first =
      if lacking required task = [] then faulty required tasks (first + 1)
      else (task, first) :: faulty required tasks (first + 1) := by
  rw [faulty, List.zipIdx_cons, List.filter_cons]
  simp only [decide_eq_true_eq, lacking_eq_nil_iff, ite_not, faulty]

/-- Every task is complete or faulty. -/
theorem length_faulty_add (required : List String) (tasks : List Entries) (first : Nat) :
    (faulty required tasks first).length + completeCount required tasks = tasks.length := by
  induction tasks generalizing first with
  | nil => rfl
  | cons task tasks ih =>
    have hone : (∀ field ∈ required, ¬ Lacks task field) ↔ lacking required task = [] := by
      rw [lacking_eq_nil_iff]
      push Not
      rfl
    rw [faulty_cons, completeCount, List.countP_cons, ← completeCount, List.length_cons,
      ← ih (first + 1)]
    by_cases h : lacking required task = []
    · simp [h, hone]
      omega
    · simp [h, hone]
      omega

/-- What a task at a place is called, when that can be shown. -/
def calledAs? (p : Entries × Nat) : Option String := (shown (taskName p.2 p.1)).toOption

theorem calledAs?_eq_some {p : Entries × Nat} {name : String} :
    calledAs? p = some name ↔ shown (taskName p.2 p.1) = .ok name := by
  unfold calledAs?
  cases shown (taskName p.2 p.1) <;> simp [Except.toOption]

/-- What is reported of a faulty task: what it is called, and what it lacks. -/
def FoundFor (required : List String) (p : Entries × Nat) (found : String × List String) : Prop :=
  calledAs? p = some found.1 ∧ found.2 = lacking required p.1

theorem placedTask_map_ok {task : Entries} {place : Nat} {found : Option (String × List String)} :
    placedTask required (.map task, place) = .ok found ↔
      if lacking required task = [] then found = none
      else ∃ report, found = some report ∧ FoundFor required (task, place) report := by
  simp only [placedTask, incomplete?, ← lacking_eq, List.isEmpty_iff]
  split
  · simp [eq_comm]
  · simp only [map_eq_ok, FoundFor, calledAs?_eq_some]
    constructor
    · rintro ⟨name, hname, rfl⟩
      exact ⟨(name, lacking required task), rfl, hname, rfl⟩
    · rintro ⟨⟨name, missing⟩, rfl, hname, rfl⟩
      exact ⟨name, hname, rfl⟩

/-- What is found of tasks is one report for each faulty one, in order. -/
theorem reports_of_mapM {tasks : List Entries} {first : Nat}
    {found : List (Option (String × List String))}
    (h : ((tasks.map Value.map).zipIdx first).mapM (placedTask required) = .ok found) :
    List.Forall₂ (FoundFor required) (faulty required tasks first) (found.filterMap id) := by
  induction tasks generalizing first found with
  | nil =>
    obtain rfl : [] = found := Except.ok.inj h
    exact .nil
  | cons task tasks ih =>
    rw [List.map_cons, List.zipIdx_cons, mapM_cons_eq_ok] at h
    obtain ⟨one, rest, hone, hrest, rfl⟩ := h
    rw [placedTask_map_ok] at hone
    rw [faulty_cons]
    by_cases hlacking : lacking required task = []
    · rw [if_pos hlacking] at hone ⊢
      rw [hone, List.filterMap_cons_none rfl]
      exact ih hrest
    · rw [if_neg hlacking] at hone ⊢
      obtain ⟨report, rfl, hreport⟩ := hone
      exact .cons hreport (ih hrest)

/-- The outcome for so many tasks and the reports on the faulty ones. -/
def tasksOutcome (total : Nat) (reports : List (String × List String)) : Outcome :=
  { score := some (taskScore (total - reports.length) total)
    vetoes := reports.map taskVeto
    metrics := Entries.ofNames
      [("total_tasks", .int total), ("compliant_tasks", .int (total - reports.length : Nat)),
       ("task_anatomy_fields", .bool reports.isEmpty)]
    validator := some Check.tasks.name
    missingFields := some (reports.foldl (fun acc t => putNamed t.1 t.2 acc) []) }

theorem runTasks_eq {tasks : List Value} (h : context.get? "tasks" = some (.list tasks)) :
    runTasks c context = tasks.zipIdx.mapM (placedTask (wanted c)) >>= fun found =>
      .ok (tasksOutcome tasks.length (found.filterMap id)) := by
  have hlist : (context.get? "tasks").getD .null = .list tasks := by rw [h, Option.getD_some]
  simp only [runTasks, hlist, orEmpty_list]
  rfl

section
variable {α : Type} {name : String} {done entries : List (String × α)}

/-- The last of what was put under a name stays. -/
theorem lookup_foldl_putNamed :
    (entries.foldl (fun acc d => putNamed d.1 d.2 acc) done).lookup name =
      (entries.reverse.lookup name).or (done.lookup name) := by
  induction entries generalizing done with
  | nil => rfl
  | cons d rest ih =>
    rw [List.foldl_cons, ih, Compiler.lookup_putNamed, List.reverse_cons,
      Compiler.lookup_append_singleton]
    by_cases hname : name = d.1 <;> simp [hname]

theorem nodup_foldl_putNamed (h : (done.map Prod.fst).Nodup) :
    ((entries.foldl (fun acc d => putNamed d.1 d.2 acc) done).map Prod.fst).Nodup := by
  induction entries generalizing done with
  | nil => exact h
  | cons d rest ih => exact ih (Compiler.nodup_putNamed d.1 d.2 h)

theorem mem_of_lookup {a : α} (h : entries.lookup name = some a) : (name, a) ∈ entries := by
  obtain ⟨before, after, rfl, -⟩ := List.lookup_eq_some_iff.mp h
  simp

/-- All entries are found under their names exactly when each name always comes with one thing. -/
theorem lookup_all_iff (entries : List (String × α)) :
    (∀ p ∈ entries, entries.lookup p.1 = some p.2) ↔
      ∀ p ∈ entries, ∀ q ∈ entries, p.1 = q.1 → p.2 = q.2 := by
  constructor
  · intro h p hp q hq hname
    exact Option.some.inj ((h p hp).symm.trans (hname ▸ h q hq))
  · intro h p hp
    obtain ⟨a, ha⟩ := Option.isSome_iff_exists.mp
      (List.lookup_isSome_iff.mpr ⟨p, hp, beq_self_eq_true p.1⟩)
    rw [ha, h p hp (p.1, a) (mem_of_lookup ha) rfl]

end

/-- A veto on a faulty task: it has a name of the task, and the fields that the task lacks. -/
structure Blames (required : List String) (p : Entries × Nat) (v : Veto) : Prop where
  kind : v.kind = .missingFields
  named : ∃ name, calledAs? p = some name ∧ v.task = some name
  missing : v.missing = some (lacking required p.1)

/-- What a check of tasks says: one veto for each faulty task, in order; ten times the share of the
complete tasks; and a table with one place for each name, for the last veto on it. -/
structure Accounts (required : List String) (tasks : List Entries) (o : Outcome) : Prop where
  vetoes : List.Forall₂ (Blames required) (faulty required tasks) o.vetoes
  score : o.score = some (if tasks = [] then 0.0
    else Float.ofNat (completeCount required tasks) / Float.ofNat tasks.length * 10.0)
  table : ∃ table, o.missingFields = some table ∧ (table.map Prod.fst).Nodup ∧
    ∀ name, table.lookup name =
      (o.vetoes.reverse.find? fun v => v.task == some name).bind Veto.missing

/-- Every veto has its fields in the table, under its name. -/
def TableAgrees (o : Outcome) : Prop :=
  ∀ v ∈ o.vetoes, ∃ name missing table, v.task = some name ∧ v.missing = some missing ∧
    o.missingFields = some table ∧ table.lookup name = some missing

section
variable {reports : List (String × List String)} {total : Nat}

theorem find?_taskVeto (name : String) :
    ((reports.map taskVeto).find? fun v => v.task == some name).bind Veto.missing =
      reports.lookup name := by
  induction reports with
  | nil => rfl
  | cons report reports ih =>
    obtain ⟨name', missing⟩ := report
    by_cases hname : name' = name
    · simp [taskVeto, hname]
    · have hne : (name == name') = false := by simpa using Ne.symm hname
      rw [List.map_cons, List.find?_cons_of_neg (by simpa [taskVeto] using hname), ih,
        List.lookup_cons, hne]

theorem tableAgrees_iff : TableAgrees (tasksOutcome total reports) ↔
    ∀ p ∈ reports, ∀ q ∈ reports, p.1 = q.1 → p.2 = q.2 := by
  have hlookup : ∀ name, (reports.foldl (fun acc t => putNamed t.1 t.2 acc) []).lookup name =
      reports.reverse.lookup name := fun name => by
    rw [lookup_foldl_putNamed, List.lookup_nil, Option.or_none]
  have hreverse : (∀ p ∈ reports, reports.reverse.lookup p.1 = some p.2) ↔
      ∀ p ∈ reports, ∀ q ∈ reports, p.1 = q.1 → p.2 = q.2 := by
    simpa only [List.mem_reverse] using lookup_all_iff reports.reverse
  rw [← hreverse, TableAgrees]
  simp only [tasksOutcome, List.forall_mem_map, taskVeto, Option.some.injEq]
  refine forall₂_congr fun p _ => ?_
  constructor
  · rintro ⟨_, _, _, rfl, rfl, rfl, hfound⟩
    rwa [hlookup] at hfound
  · intro hfound
    exact ⟨_, _, _, rfl, rfl, rfl, by rwa [hlookup]⟩

theorem accounts_of_reports {tasks : List Entries}
    (h : List.Forall₂ (FoundFor required) (faulty required tasks) reports) :
    Accounts required tasks (tasksOutcome tasks.length reports) where
  vetoes := by
    rw [tasksOutcome, List.forall₂_map_right_iff]
    refine h.imp fun p report hreport => ?_
    exact ⟨rfl, ⟨report.1, hreport.1, rfl⟩, congrArg some hreport.2⟩
  score := by
    have hlength : tasks.length - reports.length = completeCount required tasks := by
      rw [← h.length_eq, ← length_faulty_add required tasks 0, Nat.add_sub_cancel_left]
    simp only [tasksOutcome, taskScore, hlength, List.length_eq_zero_iff]
  table := by
    refine ⟨_, rfl, nodup_foldl_putNamed List.nodup_nil, fun name => ?_⟩
    rw [lookup_foldl_putNamed, List.lookup_nil, Option.or_none, ← find?_taskVeto, tasksOutcome,
      List.map_reverse]

theorem exists_of_forall₂ {α β : Type} {R : α → β → Prop} {xs : List α} {ys : List β}
    (h : List.Forall₂ R xs ys) {x : α} (hx : x ∈ xs) : ∃ y ∈ ys, R x y := by
  induction h with
  | nil => cases hx
  | @cons a b xs ys hab _ ih =>
    rcases List.mem_cons.mp hx with rfl | hx
    · exact ⟨b, List.mem_cons_self, hab⟩
    · obtain ⟨y, hy, hxy⟩ := ih hx
      exact ⟨y, List.mem_cons_of_mem b hy, hxy⟩

/-- Two reports have one name exactly when they are on tasks that go by one name. -/
theorem forall_reports_iff {ps : List (Entries × Nat)}
    (h : List.Forall₂ (FoundFor required) ps reports) :
    (∀ r ∈ reports, ∀ r' ∈ reports, r.1 = r'.1 → r.2 = r'.2) ↔
      ∀ p ∈ ps, ∀ q ∈ ps, calledAs? p = calledAs? q →
        lacking required p.1 = lacking required q.1 := by
  constructor
  · intro hsame p hp q hq hname
    obtain ⟨r, hr, hpname, hpfields⟩ := exists_of_forall₂ h hp
    obtain ⟨r', hr', hqname, hqfields⟩ := exists_of_forall₂ h hq
    rw [hpname, hqname] at hname
    rw [← hpfields, ← hqfields, hsame r hr r' hr' (Option.some.inj hname)]
  · intro hsame r hr r' hr' hname
    obtain ⟨p, hp, hpname, hpfields⟩ := exists_of_forall₂ h.flip hr
    obtain ⟨q, hq, hqname, hqfields⟩ := exists_of_forall₂ h.flip hr'
    rw [hpfields, hqfields, hsame p hp q hq (by rw [hpname, hqname, hname])]

end

/-- A check of a list of tasks that comes to an outcome accounts for every task in its vetoes and in
its score. Its table of missing fields says the same as the vetoes exactly when faulty tasks that go
by one name lack the same fields. -/
theorem runTasks_table_agrees_iff (c : Checkpoint) (context : Entries) (tasks : List Entries)
    (o : Outcome) (htasks : context.get? "tasks" = some (.list (tasks.map Value.map)))
    (h : runTasks c context = .ok o) :
    Accounts (wanted c) tasks o ∧
      (TableAgrees o ↔
        ∀ p ∈ faulty (wanted c) tasks, ∀ q ∈ faulty (wanted c) tasks,
          calledAs? p = calledAs? q → lacking (wanted c) p.1 = lacking (wanted c) q.1) := by
  rw [runTasks_eq htasks, bind_eq_ok] at h
  obtain ⟨found, hfound, ho⟩ := h
  obtain rfl := Except.ok.inj ho
  have hreports := reports_of_mapM hfound
  rw [List.length_map]
  exact ⟨accounts_of_reports hreports, tableAgrees_iff.trans (forall_reports_iff hreports)⟩

/-- A checkpoint that wants a status and an owner of every task. -/
def statusAndOwner : Checkpoint :=
  { name := "c", target := .validator "task-anatomy", requiredFields := ["Status", "Owner"] }

/-- A context with some tasks. -/
def ofTasks (tasks : List Entries) : Entries :=
  Entries.ofNames [("tasks", .list (tasks.map Value.map))]

/-- A task with a name that lacks an owner, and one without a name that lacks everything. -/
def draftAndBlank : List Entries :=
  [Entries.ofNames [("name", .str "Draft"), ("status", .str "todo")], []]

theorem runTasks_table_agrees_iff_draft :
    ∃ o, runTasks statusAndOwner (ofTasks draftAndBlank) = .ok o ∧
      Accounts (wanted statusAndOwner) draftAndBlank o ∧ TableAgrees o := by
  obtain ⟨o, ho⟩ := isSome_toOption_iff.mp (by decide +kernel :
    (runTasks statusAndOwner (ofTasks draftAndBlank)).toOption.isSome = true)
  obtain ⟨haccounts, hagrees⟩ :=
    runTasks_table_agrees_iff statusAndOwner (ofTasks draftAndBlank) draftAndBlank o rfl ho
  exact ⟨o, ho, haccounts, hagrees.mpr (by decide +kernel)⟩

/-- Two tasks of one name, each with one of the two fields. -/
def namesakes : List Entries :=
  [Entries.ofNames [("name", .str "A"), ("status", .str "todo")],
   Entries.ofNames [("name", .str "A"), ("owner", .str "x")]]

/-- What an outcome says of missing fields: in its vetoes, and in its table. -/
def missingReports (o : Outcome) :
    List (Option String × Option (List String)) × Option (List (String × List String)) :=
  (o.vetoes.map fun v => (v.task, v.missing), o.missingFields)

/-- Both are vetoed, and the table has forgotten what the first of them lacks. -/
theorem namesakes_forgotten : ∃ o, runTasks statusAndOwner (ofTasks namesakes) = .ok o ∧
    missingReports o =
      ([(some "A", some ["Owner"]), (some "A", some ["Status"])], some [("A", ["Status"])]) ∧
    ¬ TableAgrees o := by
  obtain ⟨o, ho, hreports⟩ := any_toOption_iff.mp (by decide +kernel :
    (runTasks statusAndOwner (ofTasks namesakes)).toOption.any (fun o => missingReports o =
      ([(some "A", some ["Owner"]), (some "A", some ["Status"])], some [("A", ["Status"])])) = true)
  have hreports := of_decide_eq_true hreports
  refine ⟨o, ho, hreports, fun hagrees => ?_⟩
  obtain ⟨hvetoes, htable⟩ := Prod.mk.inj hreports
  have hfirst : (some "A", some ["Owner"]) ∈ o.vetoes.map fun v => (v.task, v.missing) := by
    rw [hvetoes]
    exact List.mem_cons_self
  obtain ⟨v, hv, hpair⟩ := List.mem_map.mp hfirst
  obtain ⟨hname, hmissing⟩ := Prod.mk.inj hpair
  obtain ⟨name, missing, table, hname', hmissing', htable', hfound⟩ := hagrees v hv
  obtain rfl := Option.some.inj (hname'.symm.trans hname)
  obtain rfl := Option.some.inj (hmissing'.symm.trans hmissing)
  obtain rfl := Option.some.inj (htable'.symm.trans htable)
  exact absurd hfound (by decide)

end DecisionGate.Gate
