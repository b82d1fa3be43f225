import Mathlib.Data.List.Induction
import Mathlib.Data.List.Nodup
import DecisionGate.Proofs.Compilation
import DecisionGate.Proofs.Operation

/-!
# The lifetimes of sessions

A session lives from the first access under its id until it is ended, until all are, or until a
cleaning finds that it was idle for longer than a session may be. This module states that of every
run of the services, whatever else happens in it, and says what is kept of a live session: when it
was created, when it was accessed last and how often since. A mind that is reset only together with
its sessions is loaded as long as there is one.
-/
namespace DecisionGate

namespace Sessions

variable {s : Sessions} {id id' : String} {now : Instant} {x y : Session}

theorem lookup_touch (s : Sessions) (id id' : String) (now : Instant) :
    (s.touch id' now).live.lookup id =
      if id = id' then (s.live.lookup id).map (·.touch now) else s.live.lookup id := by
  obtain ⟨ttl, live⟩ := s
  simp only [touch]
  induction live with
  | nil => simp
  | cons p live ih =>
    obtain ⟨n, y⟩ := p
    by_cases hn : id = n
    · subst hn
      by_cases hid : id = id' <;> simp [hid]
    · have hb : (id == n) = false := by simpa using hn
      by_cases hid : n = id'
      · subst hid
        simpa [List.lookup_cons, hb, hn] using ih
      · simpa [List.lookup_cons, hb, hid] using ih

theorem map_fst_touch (s : Sessions) (id : String) (now : Instant) :
    (s.touch id now).live.map Prod.fst = s.live.map Prod.fst := by
  rw [touch, List.map_map]
  refine List.map_congr_left fun p _ => ?_
  by_cases hp : p.1 = id <;> simp [hp]

/-- Ending a session leaves all others as they are. -/
theorem live_finish (s : Sessions) (id : String) :
    (s.finish id).value.2 = { s with live := s.live.filter fun p => p.1 ≠ id } := by
  unfold finish has
  cases hlookup : s.live.lookup id with
  | some x => rfl
  | none =>
    have hall : ∀ p ∈ s.live, decide (p.1 ≠ id) = true := by
      intro p hp
      have hne : (id != p.1) = true := List.lookup_eq_none_iff.mp hlookup p hp
      exact decide_eq_true fun hsame => by simp [hsame] at hne
    simp only [List.filter_eq_self.mpr hall]
    rfl

theorem live_finishAll (s : Sessions) (ids : List String) :
    (s.finishAll ids).value = { s with live := s.live.filter fun p => p.1 ∉ ids } := by
  induction ids generalizing s with
  | nil => simp [finishAll]
  | cons id ids ih =>
    simp only [finishAll, Report.value_bind, ih, live_finish, List.filter_filter]
    congr 1
    refine List.filter_congr fun p _ => ?_
    simp [not_or, Bool.and_comm]

/-- A cleaning ends the sessions that were idle for too long, counts them and leaves all others as
they are. -/
theorem cleanUp_value (hnodup : (s.live.map Prod.fst).Nodup) (now : Instant) :
    (s.cleanUp now).value = ((s.live.filter fun p => s.ttl < now - p.2.accessed).length,
      { s with live := s.live.filter fun p => ¬ s.ttl < now - p.2.accessed }) := by
  have hkept : (s.live.filter fun p => p.1 ∉ s.stale now) =
      s.live.filter fun p => ¬ s.ttl < now - p.2.accessed := by
    refine List.filter_congr fun p hp => decide_eq_decide.mpr (not_congr ?_)
    constructor
    · intro hmem
      obtain ⟨p', hp', hsame⟩ := List.mem_map.mp hmem
      obtain ⟨hlive, hidle⟩ := List.mem_filter.mp hp'
      obtain rfl := List.inj_on_of_nodup_map hnodup hlive hp hsame
      exact of_decide_eq_true hidle
    · intro hidle
      exact List.mem_map_of_mem (List.mem_filter.mpr ⟨hp, decide_eq_true hidle⟩)
  have hcount : (s.stale now).length =
      (s.live.filter fun p => s.ttl < now - p.2.accessed).length := List.length_map _
  have hvalue : (s.cleanUp now).value =
      ((s.stale now).length, (s.finishAll (s.stale now)).value) := by
    simp only [cleanUp, Report.value_bind]
    split <;> rfl
  rw [hvalue, live_finishAll, hkept, hcount]

theorem not_mem_of_lookup {entries : List (String × Session)} (h : entries.lookup id = none) :
    id ∉ entries.map Prod.fst := by
  intro hmem
  obtain ⟨p, hp, hid⟩ := List.mem_map.mp hmem
  have hne := List.lookup_eq_none_iff.mp h p hp
  simp [hid] at hne

theorem lookup_finish (s : Sessions) (id id' : String) :
    (s.finish id').value.2.live.lookup id = if id = id' then none else s.live.lookup id := by
  obtain ⟨ttl, live⟩ := s
  rw [live_finish]
  induction live with
  | nil => simp
  | cons p live ih =>
    obtain ⟨n, y⟩ := p
    by_cases hn : n = id'
    · subst hn
      by_cases hid : id = n
      · simpa [hid] using ih
      · have hb : (id == n) = false := by simpa using hid
        simpa [List.lookup_cons, hb, hid] using ih
    · by_cases hid : id = n
      · simp [hid, hn]
      · have hb : (id == n) = false := by simpa using hid
        simpa [List.filter_cons, List.lookup_cons, hb, hn] using ih

theorem lookup_filter {entries : List (String × Session)} (q : Session → Bool)
    (hnodup : (entries.map Prod.fst).Nodup) (id : String) :
    (entries.filter fun p => q p.2).lookup id = (entries.lookup id).filter q := by
  induction entries with
  | nil => rfl
  | cons p entries ih =>
    obtain ⟨n, y⟩ := p
    obtain ⟨hnew, hrest⟩ := List.nodup_cons.mp hnodup
    have hentries := ih hrest
    by_cases hid : id = n
    · subst hid
      -- There is no other entry of that id, so it is gone if this one is.
      have hnone : entries.lookup id = none := by
        refine List.lookup_eq_none_iff.mpr fun p hp => ?_
        have hne : id ≠ p.1 := fun hsame => hnew (List.mem_map.mpr ⟨p, hp, hsame.symm⟩)
        simpa using hne
      rw [hnone] at hentries
      rw [List.lookup_cons_self, Option.filter_some]
      by_cases hy : q y = true
      · simp only [List.filter_cons, hy, if_true, List.lookup_cons_self]
      · simp only [List.filter_cons, hy, Bool.false_eq_true, if_false, hentries, Option.filter_none]
    · have hb : (id == n) = false := by simpa using hid
      by_cases hy : q y = true
      · simpa [List.filter_cons, List.lookup_cons, hy, hb] using hentries
      · simpa [List.filter_cons, List.lookup_cons, hy, hb] using hentries

end Sessions

namespace Services

variable {s : Services} {id : String} {x : Session} {op : Operation}

/-- An access to a live session is counted. Else the session is created, if the mind is loaded or
can be loaded for it. -/
theorem session_cases (s : Services) (id : String) :
    (∃ x, s.sessions.live.lookup id = some x ∧ (s.session id).value =
        (.ok (x.touch s.now), { s with sessions := s.sessions.touch id s.now })) ∨
      s.sessions.live.lookup id = none ∧
        ((∃ m : Mind, m.isLoaded = true ∧ (s.session id).value = (.ok ⟨s.now, s.now, 0⟩,
            { s with mind := m, sessions := { s.sessions with
              live := s.sessions.live ++ [(id, ⟨s.now, s.now, 0⟩)] } })) ∨
          s.mind.isLoaded = false ∧ ∃ f m, (s.session id).value = (.error f, { s with mind := m }))
    := by
  unfold session
  cases hlookup : s.sessions.live.lookup id with
  | some x => exact .inl ⟨x, rfl, rfl⟩
  | none =>
    refine .inr ⟨rfl, ?_⟩
    cases hloaded : s.mind.isLoaded with
    | true => exact .inl ⟨s.mind, hloaded, rfl⟩
    | false =>
      simp only [Bool.false_eq_true, if_false, Report.value_bind, load, withMind,
        Report.value_pure]
      cases hload : (s.mind.load s.tree).value.1 with
      | error f => exact .inr ⟨trivial, f, _, rfl⟩
      | ok b =>
        refine .inl ⟨_, ?_, rfl⟩
        rw [Mind.isLoaded, Mind.bundle_of_load hload]
        rfl

/-- Whether an operation is an access to a session. -/
def Operation.accesses (id : String) : Operation → Bool
  | .session id' => id' = id
  | _ => false

/-- The operations that end a session, which was accessed last at some time. -/
def Operation.Ends (ttl : Duration) (id : String) (accessed : Instant) : Operation → Prop
  | .endSession id' => id' = id
  | .destroyAll => True
  | .cleanUp now => ttl < now - accessed
  | _ => False

theorem Operation.eq_session (h : op.accesses id = true) : op = .session id := by
  cases op with
  | session id' => exact congrArg Operation.session (of_decide_eq_true h)
  | _ => cases h

theorem Operation.accesses_self (id : String) : (Operation.session id).accesses id = true :=
  decide_eq_true rfl

/-- The ids of the sessions are distinct, and the time for which they may be idle stays. -/
theorem sessions_step (s : Services) (op : Operation)
    (hnodup : (s.sessions.live.map Prod.fst).Nodup) :
    ((s.step op).sessions.live.map Prod.fst).Nodup ∧
      (s.step op).sessions.ttl = s.sessions.ttl := by
  cases op with
  | session id =>
    show ((s.session id).value.2.sessions.live.map Prod.fst).Nodup ∧
      (s.session id).value.2.sessions.ttl = s.sessions.ttl
    rcases s.session_cases id with ⟨x, -, hvalue⟩ | ⟨hnone, ⟨m, -, hvalue⟩ | ⟨-, f, m, hvalue⟩⟩
    · rw [hvalue]
      exact ⟨(s.sessions.map_fst_touch id s.now).symm ▸ hnodup, rfl⟩
    · rw [hvalue]
      refine ⟨?_, rfl⟩
      rw [List.map_append]
      refine List.nodup_append.mpr ⟨hnodup, by simp, fun n hn n' hn' hsame => ?_⟩
      obtain rfl : n' = id := by simpa using hn'
      exact Sessions.not_mem_of_lookup hnone (hsame ▸ hn)
    · rw [hvalue]
      exact ⟨hnodup, rfl⟩
  | endSession id =>
    show ((s.sessions.finish id).value.2.live.map Prod.fst).Nodup ∧
      (s.sessions.finish id).value.2.ttl = s.sessions.ttl
    rw [Sessions.live_finish]
    exact ⟨hnodup.sublist (List.filter_sublist.map Prod.fst), rfl⟩
  | cleanUp now =>
    show ((s.sessions.cleanUp now).value.2.live.map Prod.fst).Nodup ∧
      (s.sessions.cleanUp now).value.2.ttl = s.sessions.ttl
    rw [Sessions.cleanUp_value hnodup]
    exact ⟨hnodup.sublist (List.filter_sublist.map Prod.fst), rfl⟩
  | destroyAll => exact ⟨List.nodup_nil, rfl⟩
  | _ => exact ⟨hnodup, rfl⟩

theorem lookup_cleanUp (hnodup : (s.sessions.live.map Prod.fst).Nodup) (now : Instant) :
    (s.step (.cleanUp now)).sessions.live.lookup id =
      (s.sessions.live.lookup id).filter fun x => ¬ s.sessions.ttl < now - x.accessed := by
  show (s.sessions.cleanUp now).value.2.live.lookup id = _
  rw [Sessions.cleanUp_value hnodup]
  exact Sessions.lookup_filter (fun x => ¬ s.sessions.ttl < now - x.accessed) hnodup id

theorem lookup_endSession (s : Services) (id id' : String) :
    (s.step (.endSession id')).sessions.live.lookup id =
      if id = id' then none else s.sessions.live.lookup id :=
  s.sessions.lookup_finish id id'

/-- After an access the session is what the access gave, if anything. -/
theorem lookup_session (s : Services) (id id' : String) :
    (s.step (.session id')).sessions.live.lookup id =
      if id = id' then (s.session id).value.1.toOption else s.sessions.live.lookup id := by
  show (s.session id').value.2.sessions.live.lookup id = _
  by_cases hid : id = id'
  · subst hid
    rw [if_pos rfl]
    rcases s.session_cases id with ⟨x, hx, hvalue⟩ | ⟨hnone, ⟨m, -, hvalue⟩ | ⟨-, f, m, hvalue⟩⟩
    · rw [hvalue]
      show (s.sessions.touch id s.now).live.lookup id = _
      rw [Sessions.lookup_touch, if_pos rfl, hx]
      rfl
    · rw [hvalue]
      simp [Compiler.lookup_append_singleton, hnone, Except.toOption]
    · rw [hvalue]
      exact hnone
  · rw [if_neg hid]
    rcases s.session_cases id' with ⟨x, -, hvalue⟩ | ⟨-, ⟨m, -, hvalue⟩ | ⟨-, f, m, hvalue⟩⟩
    · rw [hvalue]
      show (s.sessions.touch id' s.now).live.lookup id = _
      rw [Sessions.lookup_touch, if_neg hid]
    · rw [hvalue]
      simp [Compiler.lookup_append_singleton, hid]
    · rw [hvalue]

/-- A live session stays until it is ended, and its accesses are counted. -/
theorem lookup_step_of_live (hnodup : (s.sessions.live.map Prod.fst).Nodup)
    (hlive : s.sessions.live.lookup id = some x) (hends : ¬ op.Ends s.sessions.ttl id x.accessed) :
    (s.step op).sessions.live.lookup id =
      some (if op.accesses id then x.touch s.now else x) := by
  cases op with
  | session id' =>
    rw [lookup_session]
    by_cases hid : id' = id
    · subst hid
      rw [if_pos rfl, Operation.accesses_self, if_pos rfl]
      rcases s.session_cases id' with ⟨y, hy, hvalue⟩ | ⟨hnone, -⟩
      · obtain rfl := Option.some.inj (hlive.symm.trans hy)
        rw [hvalue]
        rfl
      · cases hlive.symm.trans hnone
    · simp [Operation.accesses, hid, Ne.symm hid, hlive]
  | endSession id' =>
    have hid : id ≠ id' := fun hsame => hends hsame.symm
    rw [lookup_endSession, if_neg hid, hlive]
    rfl
  | cleanUp now =>
    have hkept : ¬ s.sessions.ttl < now - x.accessed := hends
    rw [lookup_cleanUp hnodup, hlive, Option.filter_some, if_pos (decide_eq_true hkept)]
    rfl
  | destroyAll => exact absurd trivial hends
  | _ => exact hlive

theorem lookup_step_of_ends (hnodup : (s.sessions.live.map Prod.fst).Nodup)
    (hlive : s.sessions.live.lookup id = some x) (hends : op.Ends s.sessions.ttl id x.accessed) :
    (s.step op).sessions.live.lookup id = none := by
  cases op with
  | endSession id' =>
    obtain rfl : id' = id := hends
    rw [lookup_endSession, if_pos rfl]
  | cleanUp now =>
    have hgone : decide (¬ s.sessions.ttl < now - x.accessed) = false :=
      decide_eq_false (not_not.mpr hends)
    rw [lookup_cleanUp hnodup, hlive, Option.filter_some, hgone]
    rfl
  | destroyAll => rfl
  | _ => exact hends.elim

/-- Nothing but an access creates a session. -/
theorem lookup_step_of_none (hnodup : (s.sessions.live.map Prod.fst).Nodup)
    (hnone : s.sessions.live.lookup id = none) :
    (s.step op).sessions.live.lookup id =
      if op.accesses id then (s.session id).value.1.toOption else none := by
  cases op with
  | session id' =>
    rw [lookup_session, hnone]
    by_cases hid : id = id' <;> simp [Operation.accesses, hid, eq_comm]
  | endSession id' =>
    rw [lookup_endSession, hnone, ite_self]
    rfl
  | cleanUp now =>
    rw [lookup_cleanUp hnodup, hnone]
    rfl
  | destroyAll => rfl
  | _ => exact hnone

variable {ops before since : List Operation}

/-- The time of the last access to a session in a run. -/
def LastAccess (s : Services) (ops : List Operation) (id : String) (t : Instant) : Prop :=
  ∃ earlier later, ops = earlier ++ .session id :: later ∧
    (∀ op ∈ later, op.accesses id = false) ∧ t = (s.after earlier).now

/-- A run that ends with a part in which a session lives: this begins with the access that created
the session, and nothing ended it since. -/
structure Lifetime (s : Services) (ops : List Operation) (id : String)
    (before since : List Operation) : Prop where
  split : ops = before ++ .session id :: since
  absent : (s.after before).sessions.live.lookup id = none
  created : ∃ x, ((s.after before).session id).value.1 = .ok x
  unended : ∀ mid op rest, since = mid ++ op :: rest →
    ∀ t, s.LastAccess (before ++ .session id :: mid) id t → ¬ op.Ends s.sessions.ttl id t

/-- What is kept of a session. -/
structure Records (s : Services) (ops : List Operation) (id : String)
    (before since : List Operation) (x : Session) : Prop where
  created : x.created = (s.after before).now
  accessed : s.LastAccess ops id x.accessed
  requests : x.requests = since.countP (Operation.accesses id)

theorem LastAccess.unique {t t' : Instant} (h : s.LastAccess ops id t)
    (h' : s.LastAccess ops id t') : t = t' := by
  obtain ⟨earlier, later, hsplit, hlater, rfl⟩ := h
  obtain ⟨earlier', later', hsplit', hlater', rfl⟩ := h'
  have hno : ∀ {mid rest later : List Operation}, later = mid ++ .session id :: rest →
      ¬ ∀ op ∈ later, op.accesses id = false := by
    intro mid rest later hmid hlater
    have hfalse := hlater (.session id) (by simp [hmid])
    rw [Operation.accesses_self] at hfalse
    cases hfalse
  rcases List.append_eq_append_iff.mp (hsplit.symm.trans hsplit') with
    ⟨mid, hearlier, hrest⟩ | ⟨mid, hearlier, hrest⟩
  · cases mid with
    | nil => rw [hearlier, List.append_nil]
    | cons op mid =>
      rw [List.cons_append] at hrest
      exact absurd hlater (hno (List.cons.inj hrest).2)
  · cases mid with
    | nil => rw [hearlier, List.append_nil]
    | cons op mid =>
      rw [List.cons_append] at hrest
      exact absurd hlater' (hno (List.cons.inj hrest).2)

theorem LastAccess.concat {t : Instant} (h : s.LastAccess ops id t)
    (hop : op.accesses id = false) : s.LastAccess (ops ++ [op]) id t := by
  obtain ⟨earlier, later, rfl, hlater, rfl⟩ := h
  refine ⟨earlier, later ++ [op], by simp, fun op' hop' => ?_, rfl⟩
  rcases List.mem_append.mp hop' with hmem | hmem
  · exact hlater op' hmem
  · exact List.mem_singleton.mp hmem ▸ hop

theorem Records.unique {x y : Session} (hx : s.Records ops id before since x)
    (hy : s.Records ops id before since y) : x = y := by
  obtain ⟨created, accessed, requests⟩ := x
  obtain ⟨created', accessed', requests'⟩ := y
  obtain rfl := hx.created.trans hy.created.symm
  obtain rfl := hx.accessed.unique hy.accessed
  obtain rfl := hx.requests.trans hy.requests.symm
  rfl

theorem Records.concat {y : Session} (hy : s.Records ops id before since y) (op : Operation) :
    s.Records (ops ++ [op]) id before (since ++ [op])
      (if op.accesses id then y.touch (s.after ops).now else y) := by
  cases hop : op.accesses id with
  | true =>
    obtain rfl := Operation.eq_session hop
    exact
      { created := hy.created
        accessed := ⟨ops, [], rfl, nofun, rfl⟩
        requests := by
          rw [List.countP_append, List.countP_singleton, if_pos hop, ← hy.requests]
          rfl }
  | false =>
    exact
      { created := hy.created
        accessed := hy.accessed.concat hop
        requests := by simp [List.countP_append, hop, hy.requests] }

theorem sessions_after (hstart : s.sessions.live = []) (ops : List Operation) :
    ((s.after ops).sessions.live.map Prod.fst).Nodup ∧
      (s.after ops).sessions.ttl = s.sessions.ttl := by
  induction ops using List.reverseRecOn with
  | nil => exact ⟨by simp [hstart], rfl⟩
  | append_singleton ops op ih =>
    obtain ⟨hnodup, httl⟩ := (s.after ops).sessions_step op ih.1
    rw [after_append, after_singleton]
    exact ⟨hnodup, httl.trans ih.2⟩

/-- Through its lifetime a session is live, with its records. -/
theorem Lifetime.live (hstart : s.sessions.live = []) (h : s.Lifetime ops id before since) :
    ∃ x, (s.after ops).sessions.live.lookup id = some x ∧ s.Records ops id before since x := by
  obtain ⟨rfl, habsent, hcreated, hunended⟩ := h
  induction since using List.reverseRecOn with
  | nil =>
    have hnodup := (s.sessions_after hstart before).1
    rw [after_append, after_singleton, lookup_step_of_none hnodup habsent,
      Operation.accesses_self, if_pos rfl]
    obtain ⟨x, hx⟩ := hcreated
    rcases (s.after before).session_cases id with
      ⟨y, hy, -⟩ | ⟨-, ⟨m, -, hvalue⟩ | ⟨-, f, m, hvalue⟩⟩
    · cases habsent.symm.trans hy
    · rw [hvalue]
      exact ⟨_, rfl,
        { created := rfl
          accessed := ⟨before, [], rfl, nofun, rfl⟩
          requests := rfl }⟩
    · rw [hvalue] at hx
      cases hx
  | append_singleton since op ih =>
    obtain ⟨y, hy, hrecords⟩ := ih fun mid op' rest hmid =>
      hunended mid op' (rest ++ [op]) (by simp [hmid])
    obtain ⟨hnodup, httl⟩ := s.sessions_after hstart (before ++ .session id :: since)
    have hends := hunended since op [] rfl y.accessed hrecords.accessed
    rw [← httl] at hends
    have hsplit : before ++ .session id :: (since ++ [op]) =
        (before ++ .session id :: since) ++ [op] := by simp
    rw [hsplit, after_append, after_singleton]
    exact ⟨_, lookup_step_of_live hnodup hy hends, hrecords.concat op⟩

/-- Another operation prolongs a lifetime unless it ends it. -/
theorem Lifetime.concat {x : Session} (hstart : s.sessions.live = [])
    (h : s.Lifetime ops id before since)
    (hlive : ((s.after ops).step op).sessions.live.lookup id = some x) :
    s.Lifetime (ops ++ [op]) id before (since ++ [op]) where
  split := by rw [h.split, List.append_assoc, List.cons_append]
  absent := h.absent
  created := h.created
  unended := by
    intro mid op' rest hmid t ht hends
    rcases List.eq_nil_or_concat rest with rfl | ⟨rest, last, rfl⟩
    · obtain ⟨rfl, hop⟩ := List.append_inj' hmid rfl
      obtain rfl : op = op' := by simpa using hop
      rw [← h.split] at ht
      obtain ⟨y, hy, hrecords⟩ := h.live hstart
      obtain ⟨hnodup, httl⟩ := s.sessions_after hstart ops
      rw [ht.unique hrecords.accessed, ← httl] at hends
      cases (lookup_step_of_ends hnodup hy hends).symm.trans hlive
    · rw [List.concat_eq_append, ← List.cons_append, ← List.append_assoc] at hmid
      exact h.unended mid op' rest (List.append_inj' hmid rfl).1 t ht hends

/-- What is live has a lifetime. -/
theorem exists_lifetime {x : Session} (hstart : s.sessions.live = [])
    (hlive : (s.after ops).sessions.live.lookup id = some x) :
    ∃ before since, s.Lifetime ops id before since := by
  induction ops using List.reverseRecOn generalizing x with
  | nil =>
    rw [after_nil, hstart] at hlive
    cases hlive
  | append_singleton ops op ih =>
    rw [after_append, after_singleton] at hlive
    cases hbefore : (s.after ops).sessions.live.lookup id with
    | some y =>
      obtain ⟨before, since, hlife⟩ := ih hbefore
      exact ⟨before, since ++ [op], hlife.concat hstart hlive⟩
    | none =>
      rw [lookup_step_of_none (s.sessions_after hstart ops).1 hbefore] at hlive
      split at hlive
      · next hop =>
        obtain rfl := Operation.eq_session hop
        refine ⟨ops, [], rfl, hbefore, ⟨x, ?_⟩, fun mid op rest hmid => by simp at hmid⟩
        cases hanswer : ((s.after ops).session id).value.1 with
        | error f => rw [hanswer] at hlive; cases hlive
        | ok y =>
          rw [hanswer] at hlive
          exact congrArg Except.ok (Option.some.inj hlive)
      · cases hlive

theorem lookup_after (hstart : s.sessions.live = []) {x : Session} :
    (s.after ops).sessions.live.lookup id = some x ↔
      ∃ before since, s.Lifetime ops id before since ∧ s.Records ops id before since x := by
  constructor
  · intro hlive
    obtain ⟨before, since, hlife⟩ := exists_lifetime hstart hlive
    obtain ⟨y, hy, hrecords⟩ := hlife.live hstart
    obtain rfl := Option.some.inj (hy.symm.trans hlive)
    exact ⟨before, since, hlife, hrecords⟩
  · intro h
    obtain ⟨before, since, hlife, hrecords⟩ := h
    obtain ⟨y, hy, hrecords'⟩ := hlife.live hstart
    rw [hrecords.unique hrecords']
    exact hy

theorem loaded_step (hop : op ≠ .reset) (hnodup : (s.sessions.live.map Prod.fst).Nodup)
    (h : s.sessions.live ≠ [] → s.mind.isLoaded = true) :
    (s.step op).sessions.live ≠ [] → (s.step op).mind.isLoaded = true := by
  cases op with
  | reset => exact absurd rfl hop
  | session id =>
    show (s.session id).value.2.sessions.live ≠ [] → (s.session id).value.2.mind.isLoaded = true
    rcases s.session_cases id with ⟨x, hx, hvalue⟩ | ⟨-, ⟨m, hm, hvalue⟩ | ⟨hno, f, m, hvalue⟩⟩
    · rw [hvalue]
      exact fun _ => h fun hempty => by simp [hempty] at hx
    · rw [hvalue]
      exact fun _ => hm
    · rw [hvalue]
      exact fun hlive => absurd (hno.symm.trans (h hlive)) nofun
  | endSession id =>
    intro hlive
    refine h fun hempty => hlive ?_
    show (s.sessions.finish id).value.2.live = []
    rw [Sessions.live_finish, hempty]
    rfl
  | cleanUp now =>
    intro hlive
    refine h fun hempty => hlive ?_
    show (s.sessions.cleanUp now).value.2.live = []
    rw [Sessions.cleanUp_value hnodup, hempty]
    rfl
  | destroyAll => exact fun hlive => absurd rfl hlive
  | _ => exact fun hlive => isLoaded_step nofun (h hlive)

theorem loaded_after (hstart : s.sessions.live = []) (hreset : .reset ∉ ops) :
    (s.after ops).sessions.live ≠ [] → (s.after ops).mind.isLoaded = true := by
  induction ops using List.reverseRecOn with
  | nil => exact fun hlive => absurd hstart hlive
  | append_singleton ops op ih =>
    have hop : op ≠ .reset := fun h => hreset (by simp [h])
    have hbefore := ih fun hmem => hreset (List.mem_append_left _ hmem)
    rw [after_append, after_singleton]
    exact loaded_step hop (s.sessions_after hstart ops).1 hbefore

theorem sessions_build {settings : Settings} {tree : Files.Tree}
    (h : (build settings tree).value = .ok s) : s.sessions = { ttl := settings.ttl } := by
  simp only [build, Mind.start, Report.value_bind, Report.value_pure, Config.Store.watch] at h
  cases hseen : tree.fingerprint settings.configPath with
  | error p => simp [hseen, Except.map] at h
  | ok seen =>
    simp only [hseen, Except.map] at h
    cases h
    rfl

/-- What holds of the sessions after a run. -/
structure Accounted (s : Services) (ops : List Operation) (ttl : Duration) : Prop where
  /-- The live sessions are those with a lifetime, and what is kept of them is true of it. -/
  live : ∀ id x, (s.after ops).sessions.live.lookup id = some x ↔
    ∃ before since, s.Lifetime ops id before since ∧ s.Records ops id before since x
  distinct : ((s.after ops).sessions.live.map Prod.fst).Nodup
  /-- A cleaning counts the sessions that it ends, which were idle for too long, and keeps all
  others as they are. -/
  cleaned : ∀ now, ((s.after ops).cleanUp now).value.1 =
      ((s.after ops).sessions.live.filter fun p => ttl < now - p.2.accessed).length ∧
    ((s.after ops).cleanUp now).value.2.sessions = { (s.after ops).sessions with
      live := (s.after ops).sessions.live.filter fun p => ¬ ttl < now - p.2.accessed }
  /-- An access that fails leaves the sessions as they are. -/
  refused : ∀ id f, ((s.after ops).session id).value.1 = .error f →
    ((s.after ops).session id).value.2.sessions = (s.after ops).sessions
  loaded : (s.after ops).sessions.live ≠ [] → (s.after ops).mind.isLoaded = true

/-- The sessions are accounted for after every run in which the mind is reset only together with
them. -/
theorem accounted_after {settings : Settings} {tree : Files.Tree} {s : Services}
    (hs : (build settings tree).value = .ok s) {ops : List Operation} (hreset : .reset ∉ ops) :
    s.sessions.ttl = settings.ttl ∧ s.Accounted ops settings.ttl := by
  have hsessions := sessions_build hs
  have hstart : s.sessions.live = [] := by rw [hsessions]
  have httl : s.sessions.ttl = settings.ttl := by rw [hsessions]
  obtain ⟨hnodup, hsame⟩ := s.sessions_after hstart ops
  refine ⟨httl,
    { live := fun id x => lookup_after hstart
      distinct := hnodup
      cleaned := fun now => ?_
      refused := fun id f hf => ?_
      loaded := loaded_after hstart hreset }⟩
  · rw [← httl, ← hsame]
    have hvalue := Sessions.cleanUp_value hnodup now
    exact ⟨congrArg Prod.fst hvalue, congrArg Prod.snd hvalue⟩
  · rcases (s.after ops).session_cases id with
      ⟨x, -, hvalue⟩ | ⟨-, ⟨m, -, hvalue⟩ | ⟨-, f', m, hvalue⟩⟩
    · rw [hvalue] at hf
      cases hf
    · rw [hvalue] at hf
      cases hf
    · rw [hvalue]

/-- A session that is accessed again a second later, and the end of another one. -/
def twoAccesses : List Operation :=
  [.session "a", .setClock (Instant.epoch + 1000000), .session "b", .session "a",
    .endSession "b"]

set_option maxRecDepth 100000 in
theorem accounted_after_twoAccesses : ∃ s x before since,
    (build (bareSettings filling) bareTree).value = .ok s ∧
      (s.after twoAccesses).sessions.live = [("a", x)] ∧ x.requests = 1 ∧
      s.Lifetime twoAccesses "a" before since ∧ s.Records twoAccesses "a" before since x ∧
      (s.after twoAccesses).mind.isLoaded = true := by
  obtain ⟨s, hs, hrun⟩ := exists_of_bareRun filling twoAccesses
    (fun s => decide (s.sessions.live =
      [("a", ⟨Instant.epoch, Instant.epoch + 1000000, 1⟩)])) (by decide +kernel)
  have hlive := of_decide_eq_true hrun
  have hreset : .reset ∉ twoAccesses := by simp [twoAccesses]
  have haccounted := (accounted_after hs hreset).2
  obtain ⟨before, since, hlife, hrecords⟩ := (haccounted.live "a" _).mp (by rw [hlive]; rfl)
  refine ⟨s, _, before, since, hs, hlive, rfl, hlife, hrecords, haccounted.loaded ?_⟩
  rw [hlive]
  exact List.cons_ne_nil _ _

end Services

end DecisionGate
