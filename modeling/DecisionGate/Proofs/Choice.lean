import DecisionGate.Proofs.Checkable
import DecisionGate.Proofs.Override

/-!
# The configuration that is chosen

A choice is between one candidate at most and the defaults. The candidate is what the variables make
of the document as soon as one of them is set, and else the document itself, if there is one. Every
choice that is made at all is of a configuration that passes the checks: the candidate, when it
passes them, and the defaults, which always do. That a candidate was there and did not pass is noted
as a fallback, and nothing else is.
-/
namespace DecisionGate.Config

/-- Where a document comes from that variables were written over. -/
def overlaidSource (file : Value) : Source :=
  if file.isNull then .environmentAndDefaults else .environmentAndFile

/-- The document that is considered for a file and an environment, and where it comes from. -/
inductive IsCandidate (file : Value) (env : Environment) : Value → Source → Prop
  | overlaid {base merged : Entries} : IsSet env → base? file = some base →
      overlay file env = .ok (some merged) → Overlays env base merged →
      IsCandidate file env (.map merged) (overlaidSource file)
  | document : ¬ IsSet env → file ≠ .null → IsCandidate file env file .file

section
variable {file : Value} {env : Environment} {v : Value} {s : Source}

theorem isNull_iff {v : Value} : v.isNull = true ↔ v = .null := by
  cases v <;> simp [Value.isNull]

theorem candidate_of_isSet (hset : IsSet env) {base : Entries} (hbase : base? file = some base) :
    candidate file env =
      .ok (some (.map (applyAll base (present env)), overlaidSource file)) := by
  simp only [candidate, overlay_of_base hset hbase, ok_bind, overlaidSource]

theorem candidate_of_not_isSet (hset : ¬ IsSet env) (file : Value) :
    candidate file env = .ok (if file.isNull then none else some (file, .file)) := by
  simp only [candidate, overlay, present_eq_nil.mpr hset, ok_bind]

/-- The candidate of a choice that does not end before it. -/
theorem isCandidate_iff {found : Option (Value × Source)} (h : candidate file env = .ok found) :
    IsCandidate file env v s ↔ found = some (v, s) := by
  by_cases hset : IsSet env
  · cases hbase : base? file with
    | none =>
      have hoverlay := overlay_of_isSet hset file
      simp [candidate, hoverlay, hbase] at h
    | some base =>
      obtain rfl := Except.ok.inj ((candidate_of_isSet hset hbase).symm.trans h)
      constructor
      · intro hcandidate
        cases hcandidate with
        | overlaid _ _ hmerged _ =>
          cases hmerged.symm.trans (overlay_of_base hset hbase)
          rfl
        | document hunset => exact absurd hset hunset
      · rintro ⟨⟩
        exact .overlaid hset hbase (overlay_of_base hset hbase) (overlays_applyAll hset base)
  · obtain rfl := Except.ok.inj ((candidate_of_not_isSet hset file).symm.trans h)
    constructor
    · intro hcandidate
      cases hcandidate with
      | overlaid hset' => exact absurd hset' hset
      | document _ hfile => rw [if_neg (isNull_iff.not.mpr hfile)]
    · intro hfound
      split at hfound
      · cases hfound
      · next hfile =>
        obtain ⟨rfl, rfl⟩ := Prod.mk.inj (Option.some.inj hfound)
        exact .document hset (isNull_iff.not.mp hfile)

theorem IsCandidate.unique {v' : Value} {s' : Source} (h : IsCandidate file env v s)
    (h' : IsCandidate file env v' s') : v = v' ∧ s = s' := by
  cases h with
  | overlaid hset _ hmerged _ =>
    cases h' with
    | overlaid _ _ hmerged' _ =>
      cases hmerged.symm.trans hmerged'
      exact ⟨rfl, rfl⟩
    | document hunset => exact absurd hset hunset
  | document hunset =>
    cases h' with
    | overlaid hset => exact absurd hset hunset
    | document => exact ⟨rfl, rfl⟩

theorem IsCandidate.ne_defaults (h : IsCandidate file env v s) : s ≠ .defaults := by
  cases h with
  | overlaid =>
    unfold overlaidSource
    split <;> decide
  | document => decide

theorem check_default : check (.map defaultEntries) = .ok [] :=
  check_eq_nil_of_isEmpty (by decide +kernel)

/-- Only a mapping passes the checks. -/
theorem map_of_check (h : check v = .ok []) : ∃ es, v = .map es := by
  cases v with
  | map es => exact ⟨es, rfl⟩
  | _ => cases h

/-- Something was replaced by something lesser. -/
def HasFallback (notes : List Note) : Prop := ∃ reason metadata, .fallback reason metadata ∈ notes

/-- What a choice comes to, by its candidate. -/
inductive Outcome (file : Value) (env : Environment) :
    Report (Except Fault (Entries × Source)) → Prop
  | nothing {notes : List Note} : (∀ v s, ¬ IsCandidate file env v s) → ¬ HasFallback notes →
      Outcome file env ⟨.ok (defaultEntries, .defaults), notes⟩
  | taken {config : Entries} {s : Source} {notes : List Note} :
      IsCandidate file env (.map config) s → check (.map config) = .ok [] → ¬ HasFallback notes →
      Outcome file env ⟨.ok (config, s), notes⟩
  | replaced {v : Value} {s : Source} {p : Problem} {ps : List Problem} {notes : List Note} :
      IsCandidate file env v s → check v = .ok (p :: ps) → HasFallback notes →
      Outcome file env ⟨.ok (defaultEntries, .defaults), notes⟩

theorem outcome_of_resolve {r : Entries × Source} (h : (resolve file env).value = .ok r) :
    Outcome file env (resolve file env) := by
  cases hcandidate : candidate file env with
  | error f => simp [resolve, hcandidate] at h
  | ok found =>
    have hiff := fun v s => isCandidate_iff (v := v) (s := s) hcandidate
    unfold resolve at h ⊢
    rw [hcandidate] at h ⊢
    cases found with
    | none =>
      refine .nothing (fun v s hvs => ?_) ?_
      · cases (hiff v s).mp hvs
      · rintro ⟨reason, metadata, hnote⟩
        simp [noteInfo, note] at hnote
    | some pair =>
      obtain ⟨v, s⟩ := pair
      have hvs : IsCandidate file env v s := (hiff v s).mpr rfl
      cases hcheck : check v with
      | error f => simp [hcheck] at h
      | ok problems =>
        cases problems with
        | nil =>
          obtain ⟨config, rfl⟩ := map_of_check hcheck
          simp only [hcheck]
          refine .taken hvs hcheck ?_
          rintro ⟨reason, metadata, hnote⟩
          simp [noteInfo, note] at hnote
        | cons p ps =>
          simp only [hcheck]
          exact .replaced hvs hcheck ⟨_, _, List.mem_append_left _ List.mem_cons_self⟩

/-- What is promised of a choice. -/
structure Chooses (file : Value) (env : Environment) (config : Entries) (source : Source)
    (notes : List Note) : Prop where
  valid : check (.map config) = .ok []
  candidate_iff : IsCandidate file env (.map config) source ↔
    ∃ v s, IsCandidate file env v s ∧ check v = .ok []
  otherwise : (¬ ∃ v s, IsCandidate file env v s ∧ check v = .ok []) →
    config = defaultEntries ∧ source = .defaults
  fallback_iff : HasFallback notes ↔ ∃ v s, IsCandidate file env v s ∧ check v ≠ .ok []

/-- Whatever the document and the environment are, a choice that is made is of the candidate when it
passes the checks and of the defaults in every other case. -/
theorem resolve_chooses {config : Entries} {source : Source}
    (h : (resolve file env).value = .ok (config, source)) :
    Chooses file env config source (resolve file env).notes := by
  have houtcome := outcome_of_resolve h
  generalize resolve file env = r at h houtcome ⊢
  cases houtcome with
  | nothing hnone hquiet =>
    cases h
    exact {
      valid := check_default
      candidate_iff := iff_of_false (hnone _ _) fun ⟨v, s, hvs, _⟩ => hnone v s hvs
      otherwise := fun _ => ⟨rfl, rfl⟩
      fallback_iff := iff_of_false hquiet fun ⟨v, s, hvs, _⟩ => hnone v s hvs }
  | taken hvs hcheck hquiet =>
    cases h
    exact {
      valid := hcheck
      candidate_iff := iff_of_true hvs ⟨_, _, hvs, hcheck⟩
      otherwise := fun hrefused => absurd ⟨_, _, hvs, hcheck⟩ hrefused
      fallback_iff := iff_of_false hquiet fun ⟨v, s, hother, hrefused⟩ => by
        obtain ⟨rfl, -⟩ := hother.unique hvs
        exact hrefused hcheck }
  | @replaced v s p ps notes hvs hcheck hfallback =>
    cases h
    have hrefused : ¬ ∃ v s, IsCandidate file env v s ∧ check v = .ok [] := by
      rintro ⟨v', s', hother, hpassed⟩
      obtain ⟨rfl, -⟩ := hother.unique hvs
      cases hcheck.symm.trans hpassed
    exact {
      valid := check_default
      candidate_iff := iff_of_false (fun hdefaults => hdefaults.ne_defaults rfl) hrefused
      otherwise := fun _ => ⟨rfl, rfl⟩
      fallback_iff := iff_of_true hfallback ⟨v, s, hvs, by simp [hcheck]⟩ }

end

/-- A choice is made of one variable and no document. -/
theorem resolve_chooses_alone :
    ∃ config source,
      (resolve .null [("VALIDATION_MINIMUM_SCORE", "7")]).value = .ok (config, source) ∧
        Chooses .null [("VALIDATION_MINIMUM_SCORE", "7")] config source
          (resolve .null [("VALIDATION_MINIMUM_SCORE", "7")]).notes := by
  obtain ⟨⟨config, source⟩, h⟩ := resolve_null_answers [("VALIDATION_MINIMUM_SCORE", "7")]
  exact ⟨config, source, h, resolve_chooses h⟩

end DecisionGate.Config
