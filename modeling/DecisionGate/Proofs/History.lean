import Mathlib.Data.List.DropRight
import DecisionGate.Proofs.Independence
import DecisionGate.Proofs.Levels

/-!
# The history of a validator

A validator remembers what it validated, up to a limit. This module follows one through any number
of validations, good and bad, of readings of its history and of clearings. What is remembered is the
end of one list: the validations that came to a result since the history was last cleared. A
validation that fails does so before anything is remembered or noted as a fallback, whatever it is
that fails. Content of any kind can be validated; it is written as a text first, and content that
cannot be written is one way to fail.
-/
namespace DecisionGate.Belief

/-- The last `n` of a list, or all of a shorter one. -/
def IsLast {α : Type} (n : Nat) (xs ys : List α) : Prop := ys <:+ xs ∧ ys.length = min n xs.length

section
variable {α : Type} {n : Nat} {xs ys : List α}

theorem isLast_lastOf (n : Nat) (xs : List α) : IsLast n xs (Telemetry.lastOf n xs) := by
  refine ⟨List.drop_suffix _ _, ?_⟩
  rw [Telemetry.lastOf, List.length_drop]
  omega

theorem isLast_zero : IsLast 0 xs [] := ⟨List.nil_suffix, by simp⟩

theorem IsLast.eq_nil (h : IsLast 0 xs ys) : ys = [] :=
  List.eq_nil_of_length_eq_zero (h.2.trans (Nat.zero_min _))

/-- Keeping the last ones each time keeps the last ones of all. -/
theorem IsLast.push (h : IsLast n xs ys) (x : α) :
    IsLast n (xs ++ [x]) (Telemetry.lastOf n (ys ++ [x])) := by
  obtain ⟨hsuffix, hlength⟩ := h
  obtain ⟨hlast, hcount⟩ := isLast_lastOf n (ys ++ [x])
  refine ⟨hlast.trans ?_, ?_⟩
  · obtain ⟨zs, rfl⟩ := hsuffix
    exact ⟨zs, by rw [List.append_assoc]⟩
  · rw [hcount, List.length_append, List.length_append, hlength, List.length_singleton]
    omega

end

namespace Validator

variable {v v' : Validator} {content levels minimum strict : Value}

/-- No note is one on a fallback. -/
def NoFallback (notes : List Note) : Prop :=
  ∀ reason metadata, Note.fallback reason metadata ∉ notes

/-- A validation fails and leaves nothing behind, or its result is remembered. -/
theorem validate_cases (v : Validator) (content levels minimum strict : Value) :
    (∃ f, (v.validate content levels minimum strict).value = (.error f, v) ∧
        NoFallback (v.validate content levels minimum strict).notes) ∨
      ∃ text r, written content = .ok text ∧ (v.validate content levels minimum strict).value =
        (.ok r, v.remember ⟨snippet text, r⟩) := by
  unfold validate
  cases requested levels with
  | error f => exact .inl ⟨f, rfl, by simp [NoFallback]⟩
  | ok ls =>
    simp only
    cases written content with
    | error f => exact .inl ⟨f, rfl, by simp [NoFallback]⟩
    | ok text =>
      simp only [Report.value_bind, Report.notes_bind]
      cases score text ls (if minimum.isNull then v.minimum else minimum)
          (if strict.isNull then v.strict else strict.isTruthy) with
      | error f => exact .inl ⟨.fault f, rfl, by simp [NoFallback, note]⟩
      | ok r =>
        right
        refine ⟨text, r, rfl, ?_⟩
        simp only [Report.value_bind]
        split <;> rfl

/-- A content that can be written is validated as its text. -/
theorem validate_written {content : Value} {text : String} (h : written content = .ok text)
    (v : Validator) (levels minimum strict : Value) :
    v.validate (.str text) levels minimum strict = v.validate content levels minimum strict := by
  have htext : written (.str text) = .ok text := rfl
  unfold validate
  rw [h, htext]

end Validator

/-- Nothing stands for a level that a request asks for. -/
theorem fails_requested_iff {levels : Value} :
    Fails (requested levels) ↔ ∀ S, ¬ Asks levels S := by
  constructor
  · rintro ⟨e, he⟩ S hasks
    obtain ⟨ls, hls, -⟩ := asks_iff.mp hasks
    cases he.symm.trans hls
  · intro hnone
    cases hls : requested levels with
    | error e => exact fails_error e
    | ok ls => exact absurd (asks_iff.mpr ⟨ls, hls, fun l => List.mem_toFinset.symm⟩) (hnone _)

section
variable {α : Type} (serialise : α → Except Failure String)

/-- Validates content that has to be written as a text first; the levels are read before that. -/
def Validator.submit (v : Validator) (content : α) (levels minimum strict : Value) :
    Report (Except Failure Result × Validator) :=
  match requested levels, serialise content with
  | .error e, _ => pure (.error e, v)
  | .ok _, .error e => pure (.error e, v)
  | .ok _, .ok text => v.validate (.str text) levels minimum strict

/-- A value is validated as what it is written as. -/
theorem Validator.submit_written (v : Validator) (content levels minimum strict : Value) :
    v.submit written content levels minimum strict =
      v.validate content levels minimum strict := by
  unfold submit
  cases h : requested levels with
  | error e => simp only [validate, h]
  | ok ls =>
    cases hwritten : written content with
    | error f => simp only [validate, h, hwritten]
    | ok text => exact validate_written hwritten v levels minimum strict

/-- What becomes of content of any kind: a failure that leaves nothing behind, or a result that is
remembered with the beginning of the text. -/
theorem Validator.submit_cases (v : Validator) (content : α) (levels minimum strict : Value) :
    (∃ f, (v.submit serialise content levels minimum strict).value = (.error f, v) ∧
        NoFallback (v.submit serialise content levels minimum strict).notes) ∨
      ∃ text r, serialise content = .ok text ∧
        (v.submit serialise content levels minimum strict).value =
          (.ok r, v.remember ⟨String.ofList (text.toList.take 200), r⟩) := by
  unfold submit
  cases requested levels with
  | error e => exact .inl ⟨e, rfl, by simp [NoFallback]⟩
  | ok ls =>
    cases serialise content with
    | error e => exact .inl ⟨e, rfl, by simp [NoFallback]⟩
    | ok text =>
      rcases v.validate_cases (.str text) levels minimum strict with hfails | ⟨_, r, ⟨⟩, hr⟩
      · exact .inl hfails
      · exact .inr ⟨text, r, rfl, hr⟩

/-- Content is refused for its levels or for not being written. -/
theorem Validator.fails_submit {levels : Value} {content : α}
    (h : (∀ S, ¬ Asks levels S) ∨ Fails (serialise content)) (v : Validator)
    (minimum strict : Value) :
    Fails (v.submit serialise content levels minimum strict).value.1 := by
  unfold submit
  rcases h with hlevels | ⟨e, he⟩
  · obtain ⟨e, he⟩ := fails_requested_iff.mpr hlevels
    rw [he]
    exact fails_error e
  · rw [he]
    cases requested levels with
    | error e' => exact fails_error e'
    | ok ls => exact fails_error e

/-- Validators of the same rules give the same answer, whatever they remember. -/
theorem Validator.submit_alike {v v' : Validator} (h : SameRules v v') (content : α)
    (levels minimum strict : Value) :
    (v'.submit serialise content levels minimum strict).value.1 =
      (v.submit serialise content levels minimum strict).value.1 := by
  unfold submit
  cases requested levels with
  | error e => rfl
  | ok ls =>
    cases serialise content with
    | error e => rfl
    | ok text => exact Gate.validate_alike h _ _ _ _

/-- What can be asked of a validator. -/
inductive Call (α : Type) where
  | validate (content : α) (levels minimum strict : Value)
  | recent (n : Int)
  | clear

def Call.isClear {α : Type} : Call α → Bool
  | .clear => true
  | _ => false

/-- A validator, and the telemetry that it reports to. -/
structure Watched where
  validator : Validator
  telemetry : Telemetry

namespace Watched

/-- The state after a call. -/
def act (s : Watched) : Call α → Watched
  | .validate content levels minimum strict =>
    let r := s.validator.submit serialise content levels minimum strict
    ⟨r.value.2, s.telemetry.writeAll r.notes⟩
  | .recent _ => s
  | .clear => { s with validator := s.validator.clear }

/-- The state after some calls. -/
def after (s : Watched) (calls : List (Call α)) : Watched := calls.foldl (act serialise) s

end Watched

/-- What a validator that remembers nothing makes of a call: its entry, if it is a validation that
comes to a result. -/
def Call.kept? (v : Validator) : Call α → Option HistoryEntry
  | .validate content levels minimum strict =>
    match serialise content, (v.submit serialise content levels minimum strict).value.1 with
    | .ok text, .ok r => some ⟨String.ofList (text.toList.take 200), r⟩
    | _, _ => none
  | _ => none

/-- The calls since the history was cleared last. -/
def sinceClear (calls : List (Call α)) : List (Call α) := calls.rtakeWhile fun call => !call.isClear

/-- The validations that came to a result since the history was cleared last. -/
def succeeded (v : Validator) (calls : List (Call α)) : List HistoryEntry :=
  (sinceClear calls).filterMap (Call.kept? serialise v)

theorem succeeded_concat (v : Validator) (calls : List (Call α)) (call : Call α) :
    succeeded serialise v (calls ++ [call]) =
      if call.isClear then []
      else succeeded serialise v calls ++ (call.kept? serialise v).toList := by
  rw [succeeded, sinceClear, List.rtakeWhile_concat]
  cases call.isClear with
  | true => rfl
  | false =>
    rw [Bool.not_false, if_pos rfl, List.filterMap_append, if_neg Bool.false_ne_true, succeeded,
      sinceClear]
    cases h : call.kept? serialise v <;> simp [h]

/-- A validator and its history at a point of a run: its rules are those of the start, and what it
remembers is the end of what succeeded. -/
structure Follows (v : Validator) (calls : List (Call α)) (w : Validator) : Prop where
  rules : Validator.SameRules v w
  history : IsLast v.limit (succeeded serialise v calls) w.history

theorem Follows.act {v : Validator} {calls : List (Call α)} {s : Watched}
    (h : Follows serialise v calls s.validator) (call : Call α) :
    Follows serialise v (calls ++ [call]) (s.act serialise call).validator := by
  obtain ⟨hrules, hhistory⟩ := h
  cases call with
  | recent n =>
    refine ⟨hrules, ?_⟩
    rw [succeeded_concat]
    simpa [Call.isClear, Call.kept?, Watched.act] using hhistory
  | clear =>
    refine ⟨⟨hrules.limit, hrules.minimum, hrules.strict⟩, ?_⟩
    rw [succeeded_concat]
    exact ⟨List.nil_suffix, by simp [Call.isClear, Watched.act, Validator.clear]⟩
  | validate content levels minimum strict =>
    -- the rules are those of the start, so the answer is the one that `succeeded` goes by
    have hsame := Validator.submit_alike serialise hrules content levels minimum strict
    rcases s.validator.submit_cases serialise content levels minimum strict with
      ⟨f, hf, -⟩ | ⟨text, r, htext, hr⟩
    · have hnone : (Call.validate content levels minimum strict).kept? serialise v = none := by
        simp only [Call.kept?, ← hsame, hf]
        cases serialise content <;> rfl
      have hact : (s.act serialise (.validate content levels minimum strict)).validator =
          s.validator := congrArg Prod.snd hf
      rw [hact]
      refine ⟨hrules, ?_⟩
      rw [succeeded_concat, hnone]
      simpa [Call.isClear] using hhistory
    · have hsome : (Call.validate content levels minimum strict).kept? serialise v =
          some ⟨String.ofList (text.toList.take 200), r⟩ := by
        simp only [Call.kept?, htext, ← hsame, hr]
      have hact : (s.act serialise (.validate content levels minimum strict)).validator =
          s.validator.remember ⟨String.ofList (text.toList.take 200), r⟩ := congrArg Prod.snd hr
      rw [hact]
      refine ⟨⟨hrules.limit, hrules.minimum, hrules.strict⟩, ?_⟩
      rw [succeeded_concat, hsome, Validator.remember, hrules.limit]
      exact hhistory.push _

theorem follows_after (v : Validator) (hempty : v.history = []) (t : Telemetry)
    (calls : List (Call α)) :
    Follows serialise v calls ((Watched.mk v t).after serialise calls).validator := by
  induction calls using List.reverseRecOn with
  | nil =>
    refine ⟨⟨rfl, rfl, rfl⟩, ?_⟩
    rw [Watched.after, List.foldl_nil, hempty]
    exact ⟨List.nil_suffix, by simp [succeeded, sinceClear]⟩
  | append_singleton calls call ih =>
    rw [Watched.after, List.foldl_append]
    exact Follows.act serialise ih call

end

open Validator (NoFallback)

theorem fallbacks_write {t : Telemetry} {n : Note} (h : NoFallback [n]) :
    (t.write n).fallbacks = t.fallbacks := by
  cases n with
  | fallback reason metadata => exact absurd (List.mem_singleton_self _) (h reason metadata)
  | log level component name => rfl
  | hit component =>
    simp only [Telemetry.write, Telemetry.recordHit]
    split <;> rfl
  | miss component =>
    simp only [Telemetry.write, Telemetry.recordMiss]
    split <;> rfl
  | started operation =>
    simp only [Telemetry.write, Telemetry.startTimer]
    split
    · rfl
    · split <;> rfl
  | ended operation =>
    simp only [Telemetry.write]
    split
    · simp only [Telemetry.endTimer]
      split
      · rfl
      · split
        · rfl
        · split <;> rfl
    · rfl

/-- Notes on anything else leave the log of fallbacks alone. -/
theorem fallbacks_writeAll {t : Telemetry} {notes : List Note} (h : NoFallback notes) :
    (t.writeAll notes).fallbacks = t.fallbacks := by
  induction notes generalizing t with
  | nil => rfl
  | cons n notes ih =>
    have hn : NoFallback [n] := fun reason metadata hmem =>
      h reason metadata (List.mem_singleton.mp hmem ▸ List.mem_cons_self)
    have hnotes : NoFallback notes := fun reason metadata hmem =>
      h reason metadata (List.mem_cons_of_mem n hmem)
    exact (ih hnotes).trans (fallbacks_write hn)

theorem isLast_recent (v : Validator) (n : Int) : IsLast n.toNat v.history (v.recent n) := by
  unfold Validator.recent
  split
  case isTrue hn =>
    rw [Int.toNat_of_nonpos hn]
    exact isLast_zero
  case isFalse => exact isLast_lastOf n.toNat v.history

section
variable {α : Type} (serialise : α → Except Failure String)

/-- A validation that fails leaves the validator as it was, and the log of fallbacks. -/
theorem Watched.act_of_fails (s : Watched) {content : α} {levels minimum strict : Value}
    (h : Fails (s.validator.submit serialise content levels minimum strict).value.1) :
    (s.act serialise (.validate content levels minimum strict)).validator = s.validator ∧
      (s.act serialise (.validate content levels minimum strict)).telemetry.fallbacks =
        s.telemetry.fallbacks := by
  rcases s.validator.submit_cases serialise content levels minimum strict with
    ⟨f, hf, hnotes⟩ | ⟨text, r, -, hr⟩
  · exact ⟨congrArg Prod.snd hf, fallbacks_writeAll hnotes⟩
  · obtain ⟨e, he⟩ := h
    rw [hr] at he
    cases he

/-- After any calls of a validator that is new, its history is the end, within the limit, of the
validations that came to a result since it was cleared last, each with the beginning of its text,
and the most recent `n` are the last `n` of it. From there, a further validation answers as the new
validator would; it fails if a level is unknown, the levels cannot be gone through or the content
cannot be written; and one that fails changes neither the history nor the log of fallbacks. All this
is said of the validation of values too, where each is written as its text, if it has one. -/
theorem history_is_last_succeeded (limit : Nat) (minimum : Value) (strict : Bool) (t : Telemetry)
    (calls : List (Call α)) :
    let new : Validator := { limit, minimum, strict }
    let s := (Watched.mk new t).after serialise calls
    IsLast limit (succeeded serialise new calls) s.validator.history ∧
      (∀ n : Int, IsLast n.toNat s.validator.history (s.validator.recent n) ∧
        (n ≤ 0 → s.validator.recent n = [])) ∧
      (∀ content levels least severe,
        let answer := (s.validator.submit serialise content levels least severe).value.1
        let s' := s.act serialise (.validate content levels least severe)
        answer = (new.submit serialise content levels least severe).value.1 ∧
          ((∀ S, ¬ Asks levels S) ∨ Fails (serialise content) → Fails answer) ∧
          (Fails answer → s'.validator.history = s.validator.history ∧
            s'.telemetry.fallbacks = s.telemetry.fallbacks)) ∧
      (fun (v : Validator) => v.submit written) = Validator.validate := by
  intro new s
  have hfollows : Follows serialise new calls s.validator := follows_after serialise new rfl t calls
  refine ⟨hfollows.history, fun n => ?_, fun content levels least severe => ?_, ?_⟩
  · have hlast := isLast_recent s.validator n
    refine ⟨hlast, fun hn => ?_⟩
    rw [Int.toNat_of_nonpos hn] at hlast
    exact hlast.eq_nil
  · refine ⟨Validator.submit_alike serialise hfollows.rules content levels least severe,
      fun h => Validator.fails_submit serialise h s.validator least severe, fun hfails => ?_⟩
    obtain ⟨hvalidator, hfallbacks⟩ := s.act_of_fails serialise hfails
    exact ⟨congrArg Validator.history hvalidator, hfallbacks⟩
  · funext v content levels least severe
    exact v.submit_written content levels least severe

end

/-- Three validations for one level each. -/
def threeValidations : List (Call Value) :=
  ["first", "second", "third"].map fun s => .validate (.str s) (.list [.int (-4)]) .null .null

/-- A history of two keeps the last two of them. -/
theorem history_is_last_succeeded_overfull :
    (succeeded written { limit := 2 } threeValidations).length = 3 ∧
      ((Watched.mk { limit := 2 } {}).after written threeValidations).validator.history =
        (succeeded written { limit := 2 } threeValidations).drop 1 := by
  have hthree : (succeeded written { limit := 2 } threeValidations).length = 3 := by
    decide +kernel
  obtain ⟨⟨hsuffix, hlength⟩, -⟩ :=
    history_is_last_succeeded written 2 (.float 7.0) false {} threeValidations
  have hlast := List.suffix_iff_eq_drop.mp hsuffix
  rw [hlength, hthree] at hlast
  exact ⟨hthree, hlast⟩

end DecisionGate.Belief
