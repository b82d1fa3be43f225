import DecisionGate.Proofs.Keys
import DecisionGate.Proofs.Operation

/-!
# The settings for validation

A configuration that is in effect was accepted, and its validation block is put into the defaults.
The check takes a null in the block for nothing that is configured, but putting the block in takes
it for a value, which then stands in the place of the default; and where a truth value is asked for,
it counts as false. A block without nulls gives settings that can be used, but for a minimum that is
NaN, which lies on no side of the range that is checked.
-/
namespace DecisionGate

namespace Config.Store

variable {ι : Type} {s : Store ι} {tree : Files.Tree}

/-- The document has each key once. -/
def Keyed (s : Store ι) : Prop := ∀ d, s.document = some d → (Value.map d.entries).Keyed

theorem keyed_keep (s : Store ι) {d : Entries} (h : (Value.map d).Keyed) : (s.keep d).2.Keyed := by
  intro found hfound
  obtain rfl := Option.some.inj hfound
  exact h

theorem Keyed.load (h : s.Keyed) (tree : Files.Tree) : (s.load tree).value.2.Keyed := by
  rw [load_value]
  rcases readDocument_cases s.toOrigin tree with ⟨f, -, hread⟩ | ⟨d, hd, hread⟩ | hread
  · rwa [hread]
  · rw [hread]
    exact s.keyed_keep hd.keyed
  · rwa [hread]

theorem Keyed.get (h : s.Keyed) (tree : Files.Tree) : (s.get tree).value.2.Keyed := by
  unfold Store.get
  split
  · exact h
  · exact h.load tree

theorem Keyed.poll (h : s.Keyed) (tree : Files.Tree) : (s.poll tree).2.Keyed := by
  unfold Store.poll
  split
  · exact h
  · split
    · exact h
    · split <;> exact h

/-- The document that is given is the one that is kept. -/
theorem document_of_get {d : Document} (h : (s.get tree).value.1 = .ok (some d)) :
    (s.get tree).value.2.document = some d := by
  unfold Store.get at h ⊢
  split at h
  · next hdoc =>
    obtain rfl := Option.some.inj (Except.ok.inj h)
    exact hdoc
  · rw [load_value] at h ⊢
    split at h
    · cases h
    · cases h
    · obtain rfl := Option.some.inj (Except.ok.inj h)
      rfl

end Config.Store

namespace Mind

variable {m : Mind} {tree : Files.Tree}

/-- A configuration in effect, checked and with each key once. -/
structure Bundle.Accepted (b : Bundle) : Prop where
  keyed : (Value.map b.config).Keyed
  checked : Config.check (.map b.config) = .ok []

theorem keyed_documentValue (h : m.store.Keyed) {found : Option Config.Document}
    (hfound : (m.store.get tree).value.1 = .ok found) : (documentValue found).Keyed := by
  cases found with
  | none => exact .null
  | some d => exact h.get tree d (Config.Store.document_of_get hfound)

theorem Loads.accepted {b : Bundle} (h : Loads m tree b) (hstore : m.store.Keyed) :
    b.Accepted := by
  obtain ⟨found, hfound, hresolve⟩ := h.document
  obtain ⟨hkeyed, hchecked⟩ :=
    Config.accepted_of_resolve (keyed_documentValue hstore hfound) hresolve
  exact ⟨hkeyed, hchecked⟩

theorem accepted_of_offered {config : Entries} (h : m.offered? tree = some config) :
    (Value.map config).Keyed ∧ Config.check (.map config) = .ok [] := by
  unfold offered? at h
  split at h
  · next d hread =>
    obtain ⟨hchecked, rfl⟩ := Config.accepted?_eq_some.mp h
    have hd : Config.HoldsMapping m.store.toOrigin tree d :=
      Config.holdsMapping_of_read (by rw [hread]; rfl)
    exact ⟨Config.keyed_overlaid hd.keyed m.environment, hchecked⟩
  · cases h

theorem keyed_load (h : m.store.Keyed) (tree : Files.Tree) :
    (m.load tree).value.2.store.Keyed := by
  cases hb : m.bundle with
  | some b =>
    rw [load_loaded hb]
    exact h
  | none =>
    rw [(load_unloaded tree hb).1]
    exact h.get tree

theorem keyed_handle (h : m.store.Keyed) (tree : Files.Tree) :
    (audience.handle tree m).value.2.store.Keyed := by
  by_cases hread : ∃ d, (Config.readDocument m.store.toOrigin tree).value = .ok (some d)
  · obtain ⟨d, hd⟩ := hread
    obtain ⟨c, -, hhandle⟩ := handle_read hd
    have hmapping : Config.HoldsMapping m.store.toOrigin tree d :=
      Config.holdsMapping_of_read (by rw [hd]; rfl)
    rw [hhandle, (told_frame c m.store.subscribers (m.keeping d)).1]
    exact m.store.keyed_keep hmapping.keyed
  · rwa [handle_unread fun d hd => hread ⟨d, hd⟩]

theorem keyed_processUpTo (h : m.store.Keyed) (tree : Files.Tree) (fuel : Nat) :
    (audience.processUpTo tree fuel m).value.2.store.Keyed :=
  Config.Audience.processUpTo_keeps (I := fun m : Mind => m.store.Keyed) tree (fun _ _ _ _ h => h)
    (fun _ h => keyed_handle h tree) fuel h

end Mind

namespace Services

/-- What a run keeps of the documents and configurations that it meets. -/
structure Keyed (s : Services) : Prop where
  store : s.mind.store.Keyed
  bundle : ∀ b, s.mind.bundle = some b → b.Accepted

variable {s : Services}

theorem Keyed.store_step (h : s.mind.store.Keyed) (op : Operation) :
    (s.step op).mind.store.Keyed := by
  cases op with
  | load => exact Mind.keyed_load h s.tree
  | session id =>
    simp only [step, session_mind]
    split
    · exact Mind.keyed_load h s.tree
    · exact h
  | process => exact Mind.keyed_processUpTo h s.tree _
  | reloadConfig => exact Mind.keyed_processUpTo (m := s.mind.notify "reload_request") h s.tree _
  | document => exact h.get s.tree
  | reloadStore => exact h.load s.tree
  | poll => exact h.poll s.tree
  | _ => exact h

theorem Keyed.step (h : s.Keyed) (op : Operation) : (s.step op).Keyed where
  store := Keyed.store_step h.store op
  bundle b hb := by
    cases s.bundle_step op with
    | same hsame => exact h.bundle b (hsame.symm.trans hb)
    | dropped _ hnone => exact absurd (hnone.symm.trans hb) (by simp)
    | loaded b' _ _ hb' hloads =>
      obtain rfl : b' = b := Option.some.inj (hb'.symm.trans hb)
      exact hloads.accepted h.store
    | renewed config a b' _ hrenews =>
      obtain rfl : b' = b := Option.some.inj (hrenews.after.symm.trans hb)
      obtain ⟨hkeyed, hchecked⟩ := Mind.accepted_of_offered hrenews.offered
      rw [← hrenews.takes.config_eq] at hkeyed hchecked
      exact ⟨hkeyed, hchecked⟩

theorem Keyed.after (h : s.Keyed) (ops : List Operation) : (s.after ops).Keyed := by
  induction ops generalizing s with
  | nil => exact h
  | cons op ops ih => exact ih (h.step op)

theorem keyed_build {settings : Settings} {tree : Files.Tree}
    (hs : (build settings tree).value = .ok s) : s.Keyed := by
  obtain ⟨seen, -, -, -, hnone, hstore, -⟩ := build_eq hs
  refine ⟨fun d hd => ?_, fun b hb => absurd (hnone.symm.trans hb) (by simp)⟩
  rw [hstore] at hd
  cases hd

end Services

namespace Config

/-- What the validation block of a configuration has under a name. -/
def configured? (config : Entries) (name : String) : Option Value :=
  ((config.get? "validation").bind Value.entries?).bind fun block => block.get? name

/-- What a setting is meant to be: what is configured, or the default when that is nothing. -/
def intended (config : Entries) (name : String) (d : Value) : Value :=
  match configured? config name with
  | none => d
  | some v => if v.isNull then d else v

variable {config : Entries} {name : String} {v : Value}

theorem field_of_configured? (h : configured? config name = some v) :
    ((Value.map config).field "validation").field name = v := by
  obtain ⟨block, hblock, hv⟩ := Option.bind_eq_some_iff.mp h
  obtain ⟨w, hw, hmap⟩ := Option.bind_eq_some_iff.mp hblock
  cases w with
  | map es =>
    obtain rfl := Option.some.inj hmap
    simp [Value.field, hw, hv]
  | _ => cases hmap

theorem checkFlag_eq_nil {problem : Problem} (h : checkFlag v problem = []) (hnull : v ≠ .null) :
    ∃ b, v = .bool b := by
  cases v with
  | null => exact absurd rfl hnull
  | bool b => exact ⟨b, rfl⟩
  | _ => cases h

/-- What the check has seen of the settings that are configured. -/
structure BlockChecked (config : Entries) : Prop where
  strictMode : ∀ v, configured? config "strict_mode" = some v → v ≠ .null → ∃ b, v = .bool b
  enableVeto : ∀ v, configured? config "enable_veto" = some v → v ≠ .null → ∃ b, v = .bool b
  minimum : ∀ v, configured? config "minimum_score" = some v → checkMinimum v = []

theorem blockChecked_of_check (h : check (.map config) = .ok []) : BlockChecked config := by
  obtain ⟨hs, haccepts⟩ := accepts_of_check h
  have hchecked := haccepts.validation
  cases hblock : (Value.map config).field "validation" with
  | map block =>
    rw [hblock] at hchecked
    simp only [checkValidation, List.append_eq_nil_iff] at hchecked
    obtain ⟨⟨hstrict, hminimum⟩, hveto⟩ := hchecked
    have hfield : ∀ name v, configured? config name = some v →
        (Value.map block).field name = v := fun name v hv =>
      hblock ▸ field_of_configured? hv
    exact {
      strictMode := fun v hv hnull => checkFlag_eq_nil (hfield _ v hv ▸ hstrict) hnull
      enableVeto := fun v hv hnull => checkFlag_eq_nil (hfield _ v hv ▸ hveto) hnull
      minimum := fun v hv => hfield _ v hv ▸ hminimum }
  | _ =>
    have hnone : ∀ name, configured? config name = none := by
      intro name
      simp only [Value.field] at hblock
      cases hv : config.get? "validation" with
      | none => simp [configured?, hv]
      | some w =>
        rw [hv, Option.getD_some] at hblock
        simp [configured?, hv, hblock, Value.entries?]
    constructor <;> intro v hv <;> simp [hnone] at hv

end Config

namespace Services

open Config

/-- Settings that can be used, as a configuration means them. -/
structure UsableSettings (s : Services) (config : Entries) : Prop where
  enableVeto : ∃ b, s.mind.validationSettings.get? "enable_veto" = some (.bool b)
  strictMode : ∃ b, s.mind.validationSettings.get? "strict_mode" = some (.bool b)
  minimum : ∃ v q, s.mind.validationSettings.get? "minimum_score" = some v ∧
    quantity? v = some (.rational q) ∧ 0 ≤ q ∧ q ≤ 10
  meant : ∀ name d, defaultValidation.get? name = some d →
    s.mind.validationSettings.get? name = some (intended config name d)
  vetoOff : s.gate.vetoEnabled = false → configured? config "enable_veto" = some (.bool false)

/-- The names of the settings that have a default. -/
theorem name_of_default {name : String} {d : Value} (h : defaultValidation.get? name = some d) :
    name = "strict_mode" ∨ name = "minimum_score" ∨ name = "enable_veto" := by
  have hmem := mem_of_get? h
  simp only [defaultValidation, Entries.ofNames, List.map_cons, List.map_nil, List.mem_cons,
    List.not_mem_nil, or_false, Prod.mk.injEq, Key.str.injEq] at hmem
  tauto

section
variable {s : Services} {b : Mind.Bundle}

/-- A setting that is configured is what is configured, null as well. -/
theorem validationSettings_get? (hb : s.mind.bundle = some b) (hkeyed : (Value.map b.config).Keyed)
    (name : String) : s.mind.validationSettings.get? name =
      (configured? b.config name).or (defaultValidation.get? name) := by
  simp only [Mind.validationSettings, hb, Option.bind_some, configured?]
  cases hv : b.config.get? "validation" with
  | none => rfl
  | some v =>
    cases v with
    | map block => exact Entries.get?_update (hkeyed.get? hv).distinct defaultValidation name
    | _ => rfl

/-- The switch is off where null is configured, as where false is. -/
theorem vetoEnabled_eq_false (hb : s.mind.bundle = some b) (haccepted : b.Accepted) :
    s.gate.vetoEnabled = false ↔
      configured? b.config "enable_veto" = some (.bool false) ∨
        configured? b.config "enable_veto" = some .null := by
  have hchecked := (blockChecked_of_check haccepted.checked).enableVeto
  have hdefault : defaultValidation.get? "enable_veto" = some (.bool true) := rfl
  simp only [gate, validationSettings_get? hb haccepted.keyed, hdefault]
  cases hv : configured? b.config "enable_veto" with
  | none => simp [Value.isTruthy]
  | some v =>
    by_cases hnull : v = .null
    · simp [hnull, Value.isTruthy]
    · obtain ⟨flag, rfl⟩ := hchecked v hv hnull
      simp [Value.isTruthy]

/-- A flag of the settings is a truth value unless null is configured. -/
theorem flag_of_ne_null (hb : s.mind.bundle = some b) (hkeyed : (Value.map b.config).Keyed)
    {name : String} {d : Bool} (hdefault : defaultValidation.get? name = some (.bool d))
    (hchecked : ∀ v, configured? b.config name = some v → v ≠ .null → ∃ flag, v = .bool flag)
    (hnull : configured? b.config name ≠ some .null) :
    ∃ flag, s.mind.validationSettings.get? name = some (.bool flag) := by
  rw [validationSettings_get? hb hkeyed, hdefault]
  cases hv : configured? b.config name with
  | none => exact ⟨d, rfl⟩
  | some v =>
    obtain ⟨flag, rfl⟩ := hchecked v hv (by rintro rfl; exact hnull hv)
    exact ⟨flag, rfl⟩

theorem minimum_of_ne_null (hb : s.mind.bundle = some b) (haccepted : b.Accepted)
    (hnull : configured? b.config "minimum_score" ≠ some .null)
    (hnan : ∀ x, configured? b.config "minimum_score" = some (.float x) →
      Double.isNaN x = false) :
    ∃ v q, s.mind.validationSettings.get? "minimum_score" = some v ∧
      quantity? v = some (.rational q) ∧ 0 ≤ q ∧ q ≤ 10 := by
  have hdefault : defaultValidation.get? "minimum_score" = some (.float 7.0) := rfl
  rw [validationSettings_get? hb haccepted.keyed, hdefault]
  cases hv : configured? b.config "minimum_score" with
  | none =>
    obtain ⟨q, hq, hlow, hhigh⟩ := checkMinimum_eq_nil (v := .float 7.0) (by decide +kernel) nofun
      (by rintro x ⟨⟩; decide +kernel)
    exact ⟨_, q, rfl, hq, hlow, hhigh⟩
  | some v =>
    have hchecked := (blockChecked_of_check haccepted.checked).minimum v hv
    obtain ⟨q, hq, hlow, hhigh⟩ := checkMinimum_eq_nil hchecked (by rintro rfl; exact hnull hv)
      fun x hx => hnan x (hx ▸ hv)
    exact ⟨v, q, rfl, hq, hlow, hhigh⟩

theorem usableSettings_of_ne_null (hb : s.mind.bundle = some b) (haccepted : b.Accepted)
    (hnull : ∀ name, defaultValidation.hasName name = true → configured? b.config name ≠ some .null)
    (hnan : ∀ x, configured? b.config "minimum_score" = some (.float x) →
      Double.isNaN x = false) : s.UsableSettings b.config where
  enableVeto := flag_of_ne_null hb haccepted.keyed (d := true) rfl
    (blockChecked_of_check haccepted.checked).enableVeto (hnull _ rfl)
  strictMode := flag_of_ne_null hb haccepted.keyed (d := false) rfl
    (blockChecked_of_check haccepted.checked).strictMode (hnull _ rfl)
  minimum := minimum_of_ne_null hb haccepted (hnull _ rfl) hnan
  meant name d hd := by
    have hname := hnull name (by rw [Entries.hasName, hd, Option.isSome_some])
    rw [validationSettings_get? hb haccepted.keyed, hd, intended]
    cases hv : configured? b.config name with
    | none => rfl
    | some v =>
      have hv' : v.isNull = false :=
        Bool.eq_false_iff.mpr fun h => hname (by rw [hv, isNull_iff.mp h])
      simp [hv']
  vetoOff hoff :=
    ((vetoEnabled_eq_false hb haccepted).mp hoff).resolve_right (hnull _ rfl)

theorem UsableSettings.ne_null (h : s.UsableSettings b.config) (hb : s.mind.bundle = some b)
    (hkeyed : (Value.map b.config).Keyed) {name : String}
    (hname : defaultValidation.hasName name = true) : configured? b.config name ≠ some .null := by
  intro hnull
  obtain ⟨d, hd⟩ := Option.isSome_iff_exists.mp hname
  have hsetting := validationSettings_get? hb hkeyed name
  rw [hnull, Option.some_or] at hsetting
  rcases name_of_default hd with rfl | rfl | rfl
  · obtain ⟨flag, hflag⟩ := h.strictMode
    cases hsetting.symm.trans hflag
  · obtain ⟨v, q, hv, hq, -⟩ := h.minimum
    obtain rfl := Option.some.inj (hsetting.symm.trans hv)
    cases hq
  · obtain ⟨flag, hflag⟩ := h.enableVeto
    cases hsetting.symm.trans hflag

theorem UsableSettings.not_nan (h : s.UsableSettings b.config) (hb : s.mind.bundle = some b)
    (hkeyed : (Value.map b.config).Keyed) {x : Float}
    (hx : configured? b.config "minimum_score" = some (.float x)) : Double.isNaN x = false := by
  obtain ⟨v, q, hv, hq, -⟩ := h.minimum
  rw [validationSettings_get? hb hkeyed, hx, Option.some_or] at hv
  obtain rfl := Option.some.inj hv
  exact isNaN_of_quantity? hq

end

/-- In every state of every run in which a bundle is published: its configuration was accepted, each
setting is what is configured under its name, null as well, and the default otherwise, and the
settings are usable, as the configuration means them, exactly when none of them is configured as
null and the configured minimum is not NaN. -/
theorem settings_usable_iff {settings : Settings} {tree : Files.Tree} {s : Services}
    (hs : (build settings tree).value = .ok s) (ops : List Operation) {b : Mind.Bundle}
    (hb : (s.after ops).mind.bundle = some b) :
    check (.map b.config) = .ok [] ∧
      (∀ name d, defaultValidation.get? name = some d →
        (s.after ops).mind.validationSettings.get? name =
          some ((configured? b.config name).getD d)) ∧
      ((s.after ops).gate.vetoEnabled = false ↔
        configured? b.config "enable_veto" = some (.bool false) ∨
          configured? b.config "enable_veto" = some .null) ∧
      ((s.after ops).UsableSettings b.config ↔
        (∀ name, defaultValidation.hasName name = true → configured? b.config name ≠ some .null) ∧
          ∀ x, configured? b.config "minimum_score" = some (.float x) →
            Double.isNaN x = false) := by
  have haccepted := ((keyed_build hs).after ops).bundle b hb
  refine ⟨haccepted.checked, fun name d hd => ?_, vetoEnabled_eq_false hb haccepted, ?_⟩
  · rw [validationSettings_get? hb haccepted.keyed, hd]
    cases configured? b.config name <;> rfl
  · constructor
    · exact fun h => ⟨fun _ hname => h.ne_null hb haccepted.keyed hname,
        fun _ hx => h.not_nan hb haccepted.keyed hx⟩
    · exact fun ⟨hnull, hnan⟩ => usableSettings_of_ne_null hb haccepted hnull hnan

set_option maxRecDepth 100000 in
theorem settings_usable_iff_load : ∃ s b,
    (build (bareSettings []) bareTree).value = .ok s ∧
      (s.after [.load]).mind.bundle = some b ∧
      check (.map b.config) = .ok [] ∧
      (∀ name d, defaultValidation.get? name = some d →
        (s.after [.load]).mind.validationSettings.get? name =
          some ((configured? b.config name).getD d)) ∧
      ((s.after [.load]).gate.vetoEnabled = false ↔
        configured? b.config "enable_veto" = some (.bool false) ∨
          configured? b.config "enable_veto" = some .null) ∧
      ((s.after [.load]).UsableSettings b.config ↔
        (∀ name, defaultValidation.hasName name = true → configured? b.config name ≠ some .null) ∧
          ∀ x, configured? b.config "minimum_score" = some (.float x) →
            Double.isNaN x = false) := by
  obtain ⟨s, hs, hloaded⟩ := exists_of_bareRun [] [.load] (fun s => s.mind.isLoaded)
    (by decide +kernel)
  obtain ⟨b, hb⟩ := Option.isSome_iff_exists.mp hloaded
  exact ⟨s, b, hs, hb, settings_usable_iff hs [.load] hb⟩

/-- A document whose validation block leaves the switch for vetoes at null. -/
def nullVeto : List Operation :=
  [writeConfig "version: v\nvalidation:\n  enable_veto: null\n", .load]

set_option maxRecDepth 100000 in
/-- It is accepted, and the switch is off. -/
theorem nullVeto_off : ∃ s b,
    (build (bareSettings filling) bareTree).value = .ok s ∧
      (s.after nullVeto).mind.bundle = some b ∧ check (.map b.config) = .ok [] ∧
      configured? b.config "enable_veto" = some .null ∧
      (s.after nullVeto).gate.vetoEnabled = false ∧
      ¬ (s.after nullVeto).UsableSettings b.config := by
  obtain ⟨s, hs, hnull⟩ := exists_of_bareRun filling nullVeto
    (fun s => s.mind.bundle.any fun b => (configured? b.config "enable_veto").any Value.isNull)
    (by decide +kernel)
  obtain ⟨b, hb, hnull⟩ := (Option.any_eq_true _ _).mp hnull
  obtain ⟨v, hv, hnull⟩ := (Option.any_eq_true _ _).mp hnull
  obtain rfl := isNull_iff.mp hnull
  have haccepted := ((keyed_build hs).after nullVeto).bundle b hb
  refine ⟨s, b, hs, hb, haccepted.checked, hv, ?_, fun h => ?_⟩
  · exact (vetoEnabled_eq_false hb haccepted).mpr (.inr hv)
  · exact h.ne_null hb haccepted.keyed rfl hv

end Services

end DecisionGate
