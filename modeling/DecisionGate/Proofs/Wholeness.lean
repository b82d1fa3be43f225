import DecisionGate.Proofs.Operation

/-!
# Reloads as a whole

A signal is meant to be all or nothing: an accepted configuration takes the place of the one before
as a whole, anything else changes nothing. It is so for every configuration that comes to an end.
One that holds itself passes the checks, and the compiler takes it before its publication fails.
-/
namespace DecisionGate.Services

/-- With the mind loaded, a signal is all or nothing exactly when what it finds in the file is not
accepted, or else the mind is subscribed and the configuration has an end. Nothing but a load of an
unloaded mind, such a signal, a reset and the end of all sessions replaces the bundle. -/
theorem signal_allOrNothing_iff (s : Services) :
    (∀ b, s.mind.bundle = some b → (s.mind.AllOrNothing b s.tree ↔
      ∀ config, s.mind.offered? s.tree = some config →
        s.mind.store.subscribers ≠ [] ∧ (Value.map config).isEndless false = false)) ∧
      ∀ op : Operation, (s.step op).mind.bundle ≠ s.mind.bundle → op.Replaces s := by
  constructor
  · intro b hb
    exact Mind.allOrNothing_iff_offered hb s.tree
  · intro op hop
    exact replaces_of_bundle_ne hop

set_option maxRecDepth 100000 in
theorem signal_allOrNothing_iff_loaded : ∃ s b,
    s.mind.bundle = some b ∧ (s.mind.AllOrNothing b s.tree ↔
      ∀ config, s.mind.offered? s.tree = some config →
        s.mind.store.subscribers ≠ [] ∧ (Value.map config).isEndless false = false) ∧
      Operation.reset.Replaces s := by
  obtain ⟨s, -, hloaded⟩ := exists_of_bareRun [] [.load] (fun s => s.mind.isLoaded)
    (by decide +kernel)
  obtain ⟨b, hb⟩ := Option.isSome_iff_exists.mp hloaded
  refine ⟨s.after [.load], b, hb, (signal_allOrNothing_iff _).1 b hb, ?_⟩
  refine (signal_allOrNothing_iff _).2 .reset ?_
  rw [hb]
  exact nofun

def loadThenKnot : List Operation := [.load, writeConfig knot]

/-- Whether the mind is loaded and the file offers a configuration without an end. -/
def offersKnot (s : Services) : Bool :=
  s.mind.isLoaded && (s.mind.offered? s.tree).any fun config =>
    (Value.map config).isEndless false

set_option maxRecDepth 100000 in
theorem loadThenKnot_neither : ∃ s b,
    (build (bareSettings filling) bareTree).value = .ok s ∧
      (s.after loadThenKnot).mind.bundle = some b ∧
      ¬ (s.after loadThenKnot).mind.AllOrNothing b (s.after loadThenKnot).tree := by
  obtain ⟨s, hs, hknot⟩ := exists_of_bareRun filling loadThenKnot offersKnot (by decide +kernel)
  obtain ⟨hloaded, hknot⟩ := Bool.and_eq_true_iff.mp hknot
  obtain ⟨b, hb⟩ := Option.isSome_iff_exists.mp hloaded
  obtain ⟨config, hoffer, he⟩ := (Option.any_eq_true _ _).mp hknot
  refine ⟨s, b, hs, hb, fun h => ?_⟩
  have hends := ((Mind.allOrNothing_iff_offered hb _).mp h config hoffer).2
  rw [he] at hends
  cases hends

end DecisionGate.Services
