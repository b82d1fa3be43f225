import Mathlib.Data.List.Induction
import DecisionGate.Proofs.Operation

/-!
# Consistent bundles

A bundle is meant to hold functions that were compiled from its own configuration. A reload always
publishes such a bundle. A load takes what the cache of the compiler holds, and the cache is keyed
by the id alone: whoever compiled a built-in heuristic before the load decides what its function
is. This module says for every run which of its bundles are consistent.
-/
namespace DecisionGate

/-- Every function was compiled from the section of the configuration that belongs to it. -/
def Mind.Bundle.Consistent (b : Mind.Bundle) : Prop :=
  ∀ p ∈ b.functions, p.2.config = .map (Config.sectionOf b.config p.1.id)

/-- Some function was compiled from nothing although there is a section that belongs to it. -/
def Mind.Bundle.hasBlank (b : Mind.Bundle) : Bool :=
  b.functions.any fun p => !p.2.config.isTruthy && !(Config.sectionOf b.config p.1.id).isEmpty

theorem Mind.Bundle.Consistent.hasBlank_eq {b : Mind.Bundle} (h : b.Consistent) :
    b.hasBlank = false := by
  simp only [Mind.Bundle.hasBlank, List.any_eq_false]
  intro p hp
  rw [h p hp]
  simp [Value.isTruthy]

/-- What the cache holds of the built-in heuristics was compiled from a configuration. -/
def Compiler.Agrees (c : Compiler) (config : Entries) : Prop :=
  ∀ (k : Builtin) (f : DecisionFunction), c.cached? k.id = some f →
    f.config = .map (Config.sectionOf config k.id)

namespace Mind

theorem Takes.consistent {config : Entries} {source : Config.Source} {old new : Bundle}
    (h : Takes config source old new) : new.Consistent := by
  intro p hp
  obtain ⟨n, hn⟩ := h.compiled p hp
  rw [hn, h.config_eq]
  rfl

theorem Loads.heuristics_eq {m : Mind} {tree : Files.Tree} {b : Bundle} (h : Loads m tree b) :
    b.functions.map Prod.fst = Builtin.all := by
  obtain ⟨fs, hfs, hmap, -⟩ := Compiler.compileEach_ok b.config m.compiler _ Builtin.nodup_all
  obtain rfl : fs = b.functions := Except.ok.inj (hfs.symm.trans h.functions)
  exact hmap

/-- A load publishes a consistent bundle exactly when the cache agrees with its configuration. -/
theorem Loads.consistent_iff {m : Mind} {tree : Files.Tree} {b : Bundle} (h : Loads m tree b) :
    b.Consistent ↔ m.compiler.Agrees b.config := by
  obtain ⟨fs, hfs, hmap, hall⟩ := Compiler.compileEach_ok b.config m.compiler _ Builtin.nodup_all
  obtain rfl : fs = b.functions := Except.ok.inj (hfs.symm.trans h.functions)
  constructor
  · intro hb k f hf
    have hk : k ∈ b.functions.map Prod.fst := hmap ▸ Builtin.mem_all k
    obtain ⟨p, hp, rfl⟩ := List.mem_map.mp hk
    rcases hall p hp with hcached | ⟨hnone, -⟩
    · obtain rfl : p.2 = f := Option.some.inj (hcached.symm.trans hf)
      exact hb p hp
    · exact absurd (hnone.symm.trans hf) (by simp)
  · intro hagrees p hp
    rcases hall p hp with hcached | ⟨-, n, hn⟩
    · exact hagrees p.1 p.2 hcached
    · rw [hn]
      rfl

end Mind

namespace Services

/-- A run split at the operation that published a bundle: the bundle was another one before it, and
is there ever since. -/
structure PublishedBy (s : Services) (ops : List Operation) (b : Mind.Bundle)
    (before : List Operation) (op : Operation) (since : List Operation) : Prop where
  split : ops = before ++ op :: since
  fresh : (s.after before).mind.bundle ≠ some b
  kept : ∀ mid, mid <+: since → (s.after (before ++ op :: mid)).mind.bundle = some b

theorem exists_publishedBy {s : Services} (h : s.mind.bundle = none) (ops : List Operation)
    {b : Mind.Bundle} (hb : (s.after ops).mind.bundle = some b) :
    ∃ before op since, PublishedBy s ops b before op since := by
  induction ops using List.reverseRecOn with
  | nil => exact absurd (h.symm.trans hb) (by simp)
  | append_singleton ops last ih =>
    by_cases hlast : (s.after ops).mind.bundle = some b
    · obtain ⟨before, op, since, hpub⟩ := ih hlast
      refine ⟨before, op, since ++ [last], by simp [hpub.split], hpub.fresh, ?_⟩
      intro mid hmid
      rcases List.prefix_concat_iff.mp hmid with rfl | hmid
      · rw [← hb, hpub.split]
        simp
      · exact hpub.kept mid hmid
    · refine ⟨ops, last, [], rfl, hlast, ?_⟩
      intro mid hmid
      rw [List.prefix_nil.mp hmid]
      exact hb

/-- In every run, a bundle that is there was published by a reload, or by a load of an unloaded
mind. By a reload it is consistent. By a load it is consistent exactly when all that the cache held
of the built-in heuristics at that time had been compiled from the same configuration. -/
theorem bundle_consistent_iff {settings : Settings} {tree : Files.Tree} {s : Services}
    (hs : (build settings tree).value = .ok s) (ops : List Operation) {b : Mind.Bundle}
    (hb : (s.after ops).mind.bundle = some b) :
    b.functions.map Prod.fst = Builtin.all ∧
      ∃ before op since, PublishedBy s ops b before op since ∧
        (b.Consistent ↔ (s.after before).mind.isLoaded ∨
          (s.after before).mind.compiler.Agrees b.config) := by
  obtain ⟨-, -, -, -, hnone, -⟩ := build_eq hs
  obtain ⟨before, op, since, hpub⟩ := exists_publishedBy hnone ops hb
  have hafter : ((s.after before).step op).mind.bundle = some b := by
    simpa using hpub.kept [] (List.nil_prefix)
  have hparts : b.functions.map Prod.fst = Builtin.all ∧ (b.Consistent ↔
      (s.after before).mind.isLoaded ∨ (s.after before).mind.compiler.Agrees b.config) := by
    cases bundle_step (s.after before) op with
    | same hsame => exact absurd (hsame.symm.trans hafter) hpub.fresh
    | dropped _ hnone => exact absurd (hnone.symm.trans hafter) (by simp)
    | loaded b' _ hunloaded hb' hloads =>
      obtain rfl : b' = b := Option.some.inj (hb'.symm.trans hafter)
      refine ⟨hloads.heuristics_eq, ?_⟩
      simp [Mind.isLoaded, hunloaded, hloads.consistent_iff]
    | renewed config a b' _ hrenews =>
      obtain rfl : b' = b := Option.some.inj (hrenews.after.symm.trans hafter)
      refine ⟨hrenews.takes.heuristics_eq, ?_⟩
      simp [Mind.isLoaded, hrenews.before, hrenews.takes.consistent]
  exact ⟨hparts.1, before, op, since, hpub, hparts.2⟩

set_option maxRecDepth 100000 in
theorem bundle_consistent_iff_load : ∃ s b,
    (build (bareSettings []) bareTree).value = .ok s ∧
      (s.after [.load]).mind.bundle = some b ∧
      b.functions.map Prod.fst = Builtin.all ∧
      ∃ before op since, PublishedBy s [.load] b before op since ∧
        (b.Consistent ↔ (s.after before).mind.isLoaded ∨
          (s.after before).mind.compiler.Agrees b.config) := by
  obtain ⟨s, hs, hloaded⟩ := exists_of_bareRun [] [.load] (fun s => s.mind.isLoaded)
    (by decide +kernel)
  obtain ⟨b, hb⟩ := Option.isSome_iff_exists.mp hloaded
  exact ⟨s, b, hs, hb, bundle_consistent_iff hs [.load] hb⟩

/-- A run of a checkpoint before the load leaves a function in the cache that was compiled from
nothing, and the load takes it. -/
def gateThenLoad : List Operation :=
  [.execute (.checkpoint { name := "gate", target := .heuristic Builtin.backCasting.id }) .null,
   .load]

set_option maxRecDepth 100000 in
theorem gateThenLoad_inconsistent : ∃ s b,
    (build (bareSettings []) bareTree).value = .ok s ∧
      (s.after gateThenLoad).mind.bundle = some b ∧ ¬ b.Consistent := by
  obtain ⟨s, hs, hblank⟩ := exists_of_bareRun [] gateThenLoad
    (fun s => s.mind.bundle.any Mind.Bundle.hasBlank) (by decide +kernel)
  obtain ⟨b, hb, hblank⟩ := (Option.any_eq_true _ _).mp hblank
  refine ⟨s, b, hs, hb, fun h => ?_⟩
  rw [h.hasBlank_eq] at hblank
  cases hblank

end Services

end DecisionGate
