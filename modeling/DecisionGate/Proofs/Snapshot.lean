import Mathlib.Data.List.Induction
import DecisionGate.Proofs.Operation

/-!
# Artifacts from one moment

A bundle is meant to hold the artifacts of one directory as they are at one moment. But a shelf
keeps each artifact as soon as it is read, and a load that fails later on leaves them there for the
next one, which reads only what is missing, in the directory that comes first by then. This module
says what a load takes from the shelf and what it reads, that the artifacts are a snapshot exactly
when everything on the shelf is still what the files hold, and that nothing is on it but what failed
loads since the last reset have left.
-/
namespace DecisionGate

namespace Mind.Shelf

variable {s s' : Shelf} {tree : Files.Tree} {relative : String} {v : Value}

/-- What the file at a path within a directory is worth now. -/
def Holds (s : Shelf) (tree : Files.Tree) (base : Files.Path) (relative : String) (v : Value) :
    Prop :=
  (readValue s.reader (base.join (.ofText relative)) tree).value = .ok v

/-- What is at a path within the directory that comes first now. -/
def Finds (s : Shelf) (tree : Files.Tree) (relative : String) (v : Value) : Prop :=
  ∃ base, firstDirectory tree s.places = .ok (some base) ∧ s.Holds tree base relative v

/-- A shelf with more on it than another one: what it kept it keeps, and what is new was found. -/
structure Grows (s s' : Shelf) (tree : Files.Tree) : Prop where
  places : s'.places = s.places
  reader : s'.reader = s.reader
  keeps : ∀ relative v, s.kept.lookup relative = some v → s'.kept.lookup relative = some v
  finds : ∀ relative v, s'.kept.lookup relative = some v →
    s.kept.lookup relative = some v ∨ s.Finds tree relative v

theorem Grows.refl (s : Shelf) (tree : Files.Tree) : Grows s s tree :=
  ⟨rfl, rfl, fun _ _ h => h, fun _ _ h => .inl h⟩

theorem Grows.finds_before (h : Grows s s' tree) (hfinds : s'.Finds tree relative v) :
    s.Finds tree relative v := by
  obtain ⟨base, hbase, hholds⟩ := hfinds
  unfold Holds at hholds
  rw [h.reader] at hholds
  exact ⟨base, h.places ▸ hbase, hholds⟩

theorem Grows.trans {s'' : Shelf} (h : Grows s s' tree) (h' : Grows s' s'' tree) :
    Grows s s'' tree := by
  refine ⟨h'.places.trans h.places, h'.reader.trans h.reader, fun relative v hkept => ?_,
    fun relative v hkept => ?_⟩
  · exact h'.keeps relative v (h.keeps relative v hkept)
  · rcases h'.finds relative v hkept with hbefore | hfinds
    · exact h.finds relative v hbefore
    · exact .inr (h.finds_before hfinds)

theorem base_of_some {p : Files.Path} (h : firstDirectory tree s.places = .ok (some p)) :
    (s.base tree).value = .ok p := by
  simp only [base, h]
  split <;> rfl

theorem base_of_ne {p : Except Failure (Option Files.Path)} (h : firstDirectory tree s.places = p)
    (hp : ∀ q, p ≠ .ok (some q)) : ∃ f, (s.base tree).value = .error f := by
  simp only [base, h]
  rcases p with f | _ | q
  · exact ⟨f, rfl⟩
  · exact ⟨_, rfl⟩
  · exact absurd rfl (hp q)

/-- What an attempt to get an artifact comes to. -/
theorem load_cases (s : Shelf) (relative : String) (tree : Files.Tree) :
    (∃ v, s.kept.lookup relative = some v ∧ (s.load relative tree).value = (.ok v, s)) ∨
      s.kept.lookup relative = none ∧
        ((∃ v, s.Finds tree relative v ∧ (s.load relative tree).value =
            (.ok v, { s with kept := s.kept ++ [(relative, v)] })) ∨
          ∃ f, (s.load relative tree).value = (.error f, s)) := by
  unfold load
  cases hkept : s.kept.lookup relative with
  | some v => exact .inl ⟨v, rfl, rfl⟩
  | none =>
    refine .inr ⟨rfl, ?_⟩
    simp only [Report.value_bind]
    by_cases hbase : ∃ p, firstDirectory tree s.places = .ok (some p)
    · obtain ⟨p, hp⟩ := hbase
      simp only [base_of_some hp, Report.value_bind]
      cases hread : (readValue s.reader (p.join (.ofText relative)) tree).value with
      | error f => exact .inr ⟨f, rfl⟩
      | ok v => exact .inl ⟨v, ⟨p, hp, hread⟩, rfl⟩
    · obtain ⟨f, hf⟩ := base_of_ne (s := s) rfl fun q hq => hbase ⟨q, hq⟩
      simp only [hf]
      exact .inr ⟨f, rfl⟩

theorem load_grows (s : Shelf) (relative : String) (tree : Files.Tree) :
    Grows s (s.load relative tree).value.2 tree := by
  rcases s.load_cases relative tree with ⟨v, -, hload⟩ | ⟨hnone, ⟨v, hfinds, hload⟩ | ⟨f, hload⟩⟩
  · rw [hload]
    exact .refl s tree
  · rw [hload]
    refine ⟨rfl, rfl, fun other w hkept => ?_, fun other w hkept => ?_⟩
    · rw [Compiler.lookup_append_singleton, hkept, Option.some_or]
    · rw [Compiler.lookup_append_singleton] at hkept
      cases hbefore : s.kept.lookup other with
      | some u =>
        rw [hbefore, Option.some_or] at hkept
        exact .inl hkept
      | none =>
        rw [hbefore, Option.none_or] at hkept
        split at hkept
        · next hother =>
          obtain rfl := Option.some.inj hkept
          exact .inr (hother ▸ hfinds)
        · cases hkept
  · rw [hload]
    exact .refl s tree

/-- What was got is on the shelf. -/
theorem lookup_of_load (h : (s.load relative tree).value.1 = .ok v) :
    (s.load relative tree).value.2.kept.lookup relative = some v := by
  rcases s.load_cases relative tree with ⟨w, hw, hload⟩ | ⟨hnone, ⟨w, -, hload⟩ | ⟨f, hload⟩⟩
  · rw [hload] at h ⊢
    exact Except.ok.inj h ▸ hw
  · rw [hload] at h ⊢
    obtain rfl := Except.ok.inj h
    rw [Compiler.lookup_append_singleton, hnone, Option.none_or, if_pos rfl]
  · rw [hload] at h
    cases h

theorem loadEach_grows (tree : Files.Tree) (as : List Artifact) (s : Shelf) :
    Grows s (s.loadEach tree as).value.2 tree := by
  induction as generalizing s with
  | nil => exact .refl s tree
  | cons a as ih =>
    have hone := s.load_grows a.path tree
    simp only [loadEach, Report.value_bind]
    cases hload : (s.load a.path tree).value with
    | mk r s' =>
      rw [hload] at hone
      cases r with
      | error f => exact hone
      | ok v => exact hone.trans (ih s')

/-- The artifacts that are got are all that were asked for, and as they are on the shelf then. -/
theorem lookup_of_loadEach {as : List Artifact} {found : List (Artifact × Value)}
    (h : (s.loadEach tree as).value.1 = .ok found) :
    found.map Prod.fst = as ∧
      ∀ p ∈ found, (s.loadEach tree as).value.2.kept.lookup p.1.path = some p.2 := by
  induction as generalizing s found with
  | nil =>
    obtain rfl := Except.ok.inj h
    exact ⟨rfl, nofun⟩
  | cons a as ih =>
    have hone : ∀ v, (s.load a.path tree).value.1 = .ok v →
        (s.load a.path tree).value.2.kept.lookup a.path = some v := fun _ => lookup_of_load
    simp only [loadEach, Report.value_bind] at h ⊢
    cases hload : (s.load a.path tree).value with
    | mk r s' =>
      rw [hload] at hone
      simp only [hload] at h ⊢
      cases r with
      | error f => cases h
      | ok v =>
        simp only [Report.value_bind, Report.value_pure] at h ⊢
        cases hmore : (s'.loadEach tree as).value.1 with
        | error f =>
          rw [hmore] at h
          cases h
        | ok more =>
          rw [hmore] at h
          obtain rfl := Except.ok.inj h
          obtain ⟨hall, hlookup⟩ := ih hmore
          refine ⟨by rw [List.map_cons, hall], ?_⟩
          rintro p (_ | ⟨_, hp⟩)
          · exact (loadEach_grows tree as s').keeps a.path v (hone v rfl)
          · exact hlookup p hp

/-- Artifacts that are one snapshot: all there are, from the directory that comes first, as its
files are. -/
structure IsSnapshot (s : Shelf) (tree : Files.Tree) (artifacts : List (Artifact × Value)) :
    Prop where
  all : artifacts.map Prod.fst = Artifact.all
  base : ∃ base, firstDirectory tree s.places = .ok (some base) ∧
    ∀ p ∈ artifacts, s.Holds tree base p.1.path p.2

/-- Every artifact on the shelf is what its file in the directory that comes first holds. -/
def Fresh (s : Shelf) (tree : Files.Tree) : Prop :=
  ∃ base, firstDirectory tree s.places = .ok (some base) ∧
    ∀ a : Artifact, ∀ v, s.kept.lookup a.path = some v → s.Holds tree base a.path v

theorem isSnapshot_iff_fresh {artifacts : List (Artifact × Value)}
    (h : (s.loadAll tree).value.1 = .ok artifacts) :
    s.IsSnapshot tree artifacts ↔ s.Fresh tree := by
  obtain ⟨hall, hlookup⟩ := lookup_of_loadEach h
  have hgrows := loadEach_grows tree Artifact.all s
  constructor
  · intro hsnapshot
    obtain ⟨base, hbase, hholds⟩ := hsnapshot.base
    refine ⟨base, hbase, fun a v hkept => ?_⟩
    obtain ⟨p, hp, rfl⟩ := List.mem_map.mp (hall ▸ a.mem_all)
    obtain rfl := Option.some.inj ((hlookup p hp).symm.trans (hgrows.keeps p.1.path v hkept))
    exact hholds p hp
  · intro hfresh
    obtain ⟨base, hbase, hholds⟩ := hfresh
    refine ⟨hall, base, hbase, fun p hp => ?_⟩
    rcases hgrows.finds p.1.path p.2 (hlookup p hp) with hkept | hfinds
    · exact hholds p.1 p.2 hkept
    · obtain ⟨base', hbase', hholds'⟩ := hfinds
      obtain rfl := Option.some.inj (Except.ok.inj (hbase'.symm.trans hbase))
      exact hholds'

/-- With none of the artifacts on the shelf, each of them is read. -/
theorem fresh_of_empty {artifacts : List (Artifact × Value)}
    (h : (s.loadAll tree).value.1 = .ok artifacts)
    (hempty : ∀ a : Artifact, s.kept.lookup a.path = none) : s.Fresh tree := by
  obtain ⟨hall, hlookup⟩ := lookup_of_loadEach h
  obtain ⟨p, hp, -⟩ := List.mem_map.mp (hall ▸ Artifact.beliefs.mem_all)
  rcases (loadEach_grows tree Artifact.all s).finds p.1.path p.2 (hlookup p hp) with
    hkept | ⟨base, hbase, -⟩
  · cases (hempty p.1).symm.trans hkept
  · exact ⟨base, hbase, fun a v hkept => by cases (hempty a).symm.trans hkept⟩

end Mind.Shelf

namespace Mind

variable {m : Mind} {tree : Files.Tree}

theorem assemble_shelf (m : Mind) (config : Entries) (tree : Files.Tree) :
    (m.assemble config tree).value.2.shelf = (m.shelf.loadAll tree).value.2 := by
  simp only [assemble, Report.value_bind]
  cases (m.shelf.loadAll tree).value.1 <;> rfl

theorem assemble_artifacts {config : Entries} {artifacts : List (Artifact × Value)}
    {fs : List (Builtin × DecisionFunction)}
    (h : (m.assemble config tree).value.1 = .ok (artifacts, fs)) :
    (m.shelf.loadAll tree).value.1 = .ok artifacts := by
  simp only [assemble, Report.value_bind] at h
  cases ha : (m.shelf.loadAll tree).value.1 with
  | error f => simp [ha] at h
  | ok found =>
    simp only [ha, Report.value_bind, Report.value_pure] at h
    obtain ⟨fs', -, hpair⟩ := map_eq_ok.mp h
    rw [(Prod.mk.inj hpair).1]

/-- A load of an unloaded mind that publishes has got all artifacts; one that does not may have got
some, which stay on the shelf. -/
theorem load_shelf (hb : m.bundle = none) :
    (∀ b, (m.load tree).value.2.bundle = some b →
        (m.shelf.loadAll tree).value.1 = .ok b.artifacts) ∧
      Shelf.Grows m.shelf (m.load tree).value.2.shelf tree := by
  have hgrows := Shelf.loadEach_grows tree Artifact.all m.shelf
  obtain ⟨read, hread⟩ : ∃ read : Mind, read = { m with store := (m.store.get tree).value.2 } :=
    ⟨_, rfl⟩
  have hshelf : read.shelf = m.shelf := by rw [hread]
  have hnone : read.bundle = none := by rw [hread, hb]
  have hresolve := m.resolve_value tree
  rw [← hread] at hresolve
  simp only [load, hb, Report.value_bind, hresolve]
  split
  · have hsame : Shelf.Grows m.shelf read.shelf tree := hshelf.symm ▸ .refl m.shelf tree
    exact ⟨fun b hb' => absurd hb' (by simp [hnone]), hsame⟩
  · next config source _ =>
    have hparts := read.assemble_shelf config tree
    have hbundle := (read.assemble_frame config tree).2.2.1
    have hartifacts : ∀ artifacts fs,
        (read.assemble config tree).value.1 = .ok (artifacts, fs) →
          (m.shelf.loadAll tree).value.1 = .ok artifacts :=
      fun _ _ h => hshelf ▸ assemble_artifacts h
    rw [hshelf] at hparts
    simp only [Report.value_bind]
    cases hassemble : (read.assemble config tree).value with
    | mk parts m' =>
      rw [hassemble] at hparts hbundle hartifacts
      have hkept : m'.bundle = none := hbundle.trans hnone
      have hgrown : Shelf.Grows m.shelf m'.shelf tree := hparts ▸ hgrows
      cases parts with
      | error f =>
        simp only
        split <;> exact ⟨fun b hb' => absurd hb' (by simp [hkept]), hgrown⟩
      | ok parts =>
        obtain ⟨artifacts, fs⟩ := parts
        simp only [publish]
        split
        · next hpublish =>
          split at hpublish <;> cases hpublish
          exact ⟨fun b hb' => absurd hb' (by simp [hkept]), hgrown⟩
        · next hpublish =>
          split at hpublish <;> cases hpublish
          refine ⟨fun b hb' => ?_, hgrown⟩
          obtain rfl := Option.some.inj hb'
          exact hartifacts artifacts fs rfl

end Mind

namespace Services

/-- What an operation does to the shelf. -/
inductive ShelfStep (s : Services) (op : Operation) : Prop
  | same : ¬ op.Drops → (s.step op).mind.shelf = s.mind.shelf → ShelfStep s op
  | dropped : op.Drops → (s.step op).mind.shelf.kept = [] → ShelfStep s op
  | grown : op.Loads s → s.mind.bundle = none →
      Mind.Shelf.Grows s.mind.shelf (s.step op).mind.shelf s.tree → ShelfStep s op

theorem shelf_step (s : Services) (op : Operation) : ShelfStep s op := by
  cases op with
  | load =>
    by_cases hb : s.mind.bundle = none
    · exact .grown .load hb (Mind.load_shelf hb).2
    · obtain ⟨b, hb⟩ := Option.ne_none_iff_exists'.mp hb
      have hload : (s.mind.load s.tree).value = _ := Mind.load_loaded hb
      exact .same nofun (congrArg (fun r => r.2.shelf) hload)
  | session id =>
    have hmind : (s.step (.session id)).mind = _ := s.session_mind id
    by_cases hnew : s.sessions.live.lookup id = none ∧ s.mind.bundle = none
    · rw [if_pos hnew] at hmind
      refine .grown (.session id hnew.1) hnew.2 ?_
      rw [hmind]
      exact (Mind.load_shelf hnew.2).2
    · rw [if_neg hnew] at hmind
      exact .same nofun (congrArg Mind.shelf hmind)
  | reset => exact .dropped .reset rfl
  | destroyAll => exact .dropped .destroyAll rfl
  | process => exact .same nofun (Mind.processUpTo_sameFrame s.tree _ s.mind).shelf
  | reloadConfig =>
    exact .same nofun (Mind.processUpTo_sameFrame s.tree _ (s.mind.notify "reload_request")).shelf
  | _ => exact .same nofun rfl

/-- What is built has nothing on its shelf. -/
theorem build_shelf {settings : Settings} {tree : Files.Tree} {s : Services}
    (h : (build settings tree).value = .ok s) : s.mind.shelf.kept = [] := by
  simp only [build, Mind.start, Report.value_bind, Report.value_pure, Config.Store.watch] at h
  cases hseen : tree.fingerprint settings.configPath with
  | error p => simp [hseen, Except.map] at h
  | ok seen =>
    simp only [hseen, Except.map] at h
    cases h
    rfl

theorem isLoaded_after {s : Services} {ops : List Operation} (hops : ∀ op ∈ ops, ¬ op.Drops)
    (h : s.mind.isLoaded = true) : (s.after ops).mind.isLoaded = true := by
  induction ops generalizing s with
  | nil => exact h
  | cons op ops ih =>
    exact ih (fun o ho => hops o (List.mem_cons_of_mem op ho))
      (isLoaded_step (hops op List.mem_cons_self) h)

/-- A load in a run, of a mind that was not loaded, since which nothing was dropped. -/
structure LoadSince (start : Services) (ops before : List Operation) (op : Operation) : Prop where
  since : ∃ since, ops = before ++ op :: since ∧ ∀ o ∈ since, ¬ o.Drops
  loads : op.Loads (start.after before)
  unloaded : (start.after before).mind.bundle = none

theorem LoadSince.snoc {start : Services} {ops before : List Operation} {op o : Operation}
    (h : start.LoadSince ops before op) (ho : ¬ o.Drops) :
    start.LoadSince (ops ++ [o]) before op := by
  obtain ⟨since, rfl, hsince⟩ := h.since
  refine { h with since := ⟨since ++ [o], by simp, fun o' ho' => ?_⟩ }
  rcases List.mem_append.mp ho' with hbefore | hlast
  · exact hsince o' hbefore
  · exact List.mem_singleton.mp hlast ▸ ho

/-- If the mind is not loaded at the end, the load failed. -/
theorem LoadSince.failed {start : Services} {ops before : List Operation} {op : Operation}
    (h : start.LoadSince ops before op) (hnone : (start.after ops).mind.bundle = none) :
    (start.after (before ++ [op])).mind.bundle = none := by
  obtain ⟨since, rfl, hsince⟩ := h.since
  have hsplit : start.after (before ++ op :: since) =
      (start.after (before ++ [op])).after since := by
    rw [← after_append, List.append_assoc, List.singleton_append]
  by_contra hsome
  have hloaded : (start.after (before ++ [op])).mind.isLoaded = true :=
    Option.isSome_iff_ne_none.mpr hsome
  have hend := isLoaded_after hsince hloaded
  rw [← hsplit, Mind.isLoaded, hnone] at hend
  cases hend

/-- What is on the shelf was found by a load since which nothing was dropped. -/
theorem exists_load_of_kept {settings : Settings} {tree : Files.Tree} {start : Services}
    (hstart : (build settings tree).value = .ok start) {ops : List Operation} {relative : String}
    {v : Value} (h : (start.after ops).mind.shelf.kept.lookup relative = some v) :
    ∃ before op, start.LoadSince ops before op ∧
      (start.after before).mind.shelf.Finds (start.after before).tree relative v := by
  induction ops using List.reverseRecOn with
  | nil =>
    rw [after_nil, build_shelf hstart] at h
    cases h
  | append_singleton ops op ih =>
    rw [after_append, after_singleton] at h
    cases (start.after ops).shelf_step op with
    | dropped _ hempty =>
      rw [hempty] at h
      cases h
    | same hop hsame =>
      rw [hsame] at h
      obtain ⟨before, o, hload, hfinds⟩ := ih h
      exact ⟨before, o, hload.snoc hop, hfinds⟩
    | grown hloads hnone hgrows =>
      rcases hgrows.finds relative v h with hbefore | hfinds
      · obtain ⟨before, o, hload, hfinds⟩ := ih hbefore
        refine ⟨before, o, hload.snoc fun hdrops => ?_, hfinds⟩
        cases hloads <;> cases hdrops
      · exact ⟨ops, op, ⟨⟨[], rfl, nofun⟩, hloads, hnone⟩, hfinds⟩

/-- The artifacts of a bundle that a load published are those on the shelf or in the directory. -/
theorem loadAll_of_published {s : Services} {op : Operation} {b : Mind.Bundle} (hop : op.Loads s)
    (hnone : s.mind.bundle = none) (hb : (s.step op).mind.bundle = some b) :
    (s.mind.shelf.loadAll s.tree).value.1 = .ok b.artifacts := by
  refine (Mind.load_shelf hnone).1 b ?_
  cases hop with
  | load => exact hb
  | session id hl =>
    have hmind : (s.step (.session id)).mind = _ := s.session_mind id
    rwa [hmind, if_pos ⟨hl, hnone⟩] at hb

/-- Whenever, in some run, a load publishes a bundle: its artifacts are one snapshot exactly when
everything that is on the shelf by then is what the files hold. All of that was found by loads that
failed since the last reset, so with no such load the artifacts are one snapshot. -/
theorem artifacts_snapshot_iff {settings : Settings} {tree : Files.Tree} {start : Services}
    (hstart : (build settings tree).value = .ok start) {ops : List Operation} {op : Operation}
    {b : Mind.Bundle} (hop : op.Loads (start.after ops))
    (hnone : (start.after ops).mind.bundle = none)
    (hb : (start.after (ops ++ [op])).mind.bundle = some b) :
    ((start.after ops).mind.shelf.IsSnapshot (start.after ops).tree b.artifacts ↔
        (start.after ops).mind.shelf.Fresh (start.after ops).tree) ∧
      (∀ a : Mind.Artifact, ∀ v, (start.after ops).mind.shelf.kept.lookup a.path = some v →
        ∃ before failed, start.LoadSince ops before failed ∧
          (start.after (before ++ [failed])).mind.bundle = none ∧
          (start.after before).mind.shelf.Finds (start.after before).tree a.path v) ∧
      ((∀ before failed, start.LoadSince ops before failed →
          (start.after (before ++ [failed])).mind.bundle ≠ none) →
        (start.after ops).mind.shelf.IsSnapshot (start.after ops).tree b.artifacts) := by
  have hall := loadAll_of_published hop hnone (by rwa [after_append, after_singleton] at hb)
  have hiff := Mind.Shelf.isSnapshot_iff_fresh hall
  have horigin : ∀ a : Mind.Artifact, ∀ v,
      (start.after ops).mind.shelf.kept.lookup a.path = some v →
        ∃ before failed, start.LoadSince ops before failed ∧
          (start.after (before ++ [failed])).mind.bundle = none ∧
          (start.after before).mind.shelf.Finds (start.after before).tree a.path v := by
    intro a v hkept
    obtain ⟨before, failed, hload, hfinds⟩ := exists_load_of_kept hstart hkept
    exact ⟨before, failed, hload, hload.failed hnone, hfinds⟩
  refine ⟨hiff, horigin, fun hsuccess => hiff.mpr (Mind.Shelf.fresh_of_empty hall fun a => ?_)⟩
  by_contra hsome
  obtain ⟨v, hkept⟩ := Option.ne_none_iff_exists'.mp hsome
  obtain ⟨before, failed, hload, hfailed, -⟩ := horigin a v hkept
  exact hsuccess before failed hload hfailed

set_option maxRecDepth 100000 in
theorem artifacts_snapshot_iff_load : ∃ start b,
    (build (bareSettings []) bareTree).value = .ok start ∧
      (start.after [.load]).mind.bundle = some b ∧
      start.mind.shelf.IsSnapshot start.tree b.artifacts := by
  obtain ⟨start, hstart, hloaded⟩ := exists_of_bareRun [] [.load] (fun s => s.mind.isLoaded)
    (by decide +kernel)
  obtain ⟨b, hb⟩ := Option.isSome_iff_exists.mp hloaded
  obtain ⟨-, -, -, -, hnone, -⟩ := build_eq hstart
  have hsnapshot := (@artifacts_snapshot_iff _ _ _ hstart [] _ _ .load hnone hb).2.2
  refine ⟨start, b, hstart, hb, hsnapshot fun before failed hload => ?_⟩
  obtain ⟨since, hsplit, -⟩ := hload.since
  simp at hsplit

/-- A load that fails at the last artifact, which is missing; then the first one changes and the
last one comes back. -/
def changedBetween : List Operation :=
  [.edit (.delete (.ofText "minds/m/system_prompts/system_prompt.txt")), .load,
   .edit (.write (.ofText "minds/m/artifacts/meta_axioms.md")
     ("# A\ntext\n".toList.map Char.toNat) none),
   .edit (.write (.ofText "minds/m/system_prompts/system_prompt.txt") [] none)]

/-- Whether no bundle is there, the next load gives one, and an artifact on the shelf is empty while
its file is not. -/
def isOutdated (s : Services) : Bool :=
  s.mind.bundle.isNone && (s.step .load).mind.isLoaded &&
    (s.mind.shelf.kept.lookup Mind.Artifact.beliefs.path).any fun v => !v.isTruthy &&
      match Mind.Shelf.firstDirectory s.tree s.mind.shelf.places with
      | .ok (some base) =>
        (Mind.Shelf.readValue s.mind.shelf.reader
          (base.join (.ofText Mind.Artifact.beliefs.path)) s.tree).value.toOption.any
            Value.isTruthy
      | _ => false

theorem not_fresh_of_isOutdated {s : Services} (h : s.isOutdated = true) :
    ¬ s.mind.shelf.Fresh s.tree := by
  intro hfresh
  obtain ⟨base, hbase, hholds⟩ := hfresh
  obtain ⟨-, hkept⟩ := Bool.and_eq_true_iff.mp h
  obtain ⟨v, hv, hread⟩ := (Option.any_eq_true _ _).mp hkept
  have hvalue : (Mind.Shelf.readValue s.mind.shelf.reader
    (base.join (.ofText Mind.Artifact.beliefs.path)) s.tree).value = .ok v := hholds .beliefs v hv
  simp [hbase, hvalue, Except.toOption] at hread

set_option maxRecDepth 100000 in
theorem changedBetween_mixed : ∃ start b,
    (build (bareSettings []) bareTree).value = .ok start ∧
      (start.after changedBetween).mind.bundle = none ∧
      (start.after (changedBetween ++ [.load])).mind.bundle = some b ∧
      ¬ (start.after changedBetween).mind.shelf.IsSnapshot
        (start.after changedBetween).tree b.artifacts := by
  obtain ⟨start, hstart, houtdated⟩ := exists_of_bareRun [] changedBetween isOutdated
    (by decide +kernel)
  have hfresh := not_fresh_of_isOutdated houtdated
  obtain ⟨hloads, -⟩ := Bool.and_eq_true_iff.mp houtdated
  obtain ⟨hunloaded, hloaded⟩ := Bool.and_eq_true_iff.mp hloads
  obtain ⟨b, hb⟩ := Option.isSome_iff_exists.mp hloaded
  have hnone := Option.isNone_iff_eq_none.mp hunloaded
  have hall := loadAll_of_published .load hnone hb
  refine ⟨start, b, hstart, hnone, by rw [after_append, after_singleton, hb], fun hsnapshot => ?_⟩
  exact hfresh ((Mind.Shelf.isSnapshot_iff_fresh hall).mp hsnapshot)

end Services

end DecisionGate
