import DecisionGate.Proofs.Results
import DecisionGate.Text.Stream

/-!
# Files that are text

A file is decoded chunk by chunk, and a chunk can end inside a character. What is broken off there
waits for the next chunk, so a file is read to its end without a fault exactly when it is text as a
whole, in whatever chunks it comes.
-/
namespace DecisionGate

namespace Utf8

/-- Octets that continue a character, the first of them within a range of its own. -/
def Continues (low high : Nat) : List Nat → Prop
  | [] => True
  | c :: rest => (low ≤ c ∧ c ≤ high) ∧ ∀ d ∈ rest, isTail d = true

theorem width_of_lead {b width low high : Nat} (h : lead? b = some (width, low, high)) :
    width = 1 ∨ width = 2 ∨ width = 3 ∨ width = 4 := by
  unfold lead? at h
  repeat' split at h
  all_goals
    first
    | (simp only [Option.some.injEq, Prod.mk.injEq] at h; omega)
    | cases h

theorem bind_eq_map {r : Except Problem (List Char)} {c : Char} :
    (do let cs ← r; .ok (c :: cs)) = r.map (c :: ·) := by
  cases r <;> rfl

section
variable {b width low high : Nat} {tail : List Nat} (htail : Continues low high tail)
include htail

/-- A character in front of others. -/
theorem decodeFrom_char (hlead : lead? b = some (width, low, high))
    (hlength : tail.length + 1 = width) :
    ∃ c, ∀ start rest, decodeFrom start (b :: (tail ++ rest)) =
      (decodeFrom (start + width) rest).map (c :: ·) := by
  rcases width_of_lead hlead with rfl | rfl | rfl | rfl
  · obtain rfl := List.eq_nil_of_length_eq_zero (Nat.succ.inj hlength)
    exact ⟨Char.ofNat b, fun start rest => by simp [decodeFrom, hlead, bind_eq_map]⟩
  · obtain ⟨c, rfl⟩ := List.length_eq_one_iff.mp (Nat.succ.inj hlength)
    refine ⟨Char.ofNat (leadBits 2 b * 64 + c % 64), fun start rest => ?_⟩
    simp [decodeFrom, hlead, htail.1, bind_eq_map]
  · obtain ⟨c, d, rfl⟩ := List.length_eq_two.mp (Nat.succ.inj hlength)
    have hd : isTail d = true := htail.2 d (by simp)
    refine ⟨Char.ofNat ((leadBits 3 b * 64 + c % 64) * 64 + d % 64), fun start rest => ?_⟩
    simp [decodeFrom, hlead, htail.1, hd, bind_eq_map]
  · obtain ⟨c, d, e, rfl⟩ := List.length_eq_three.mp (Nat.succ.inj hlength)
    have hd : isTail d = true := htail.2 d (by simp)
    have he : isTail e = true := htail.2 e (by simp)
    refine ⟨Char.ofNat (((leadBits 4 b * 64 + c % 64) * 64 + d % 64) * 64 + e % 64),
      fun start rest => ?_⟩
    simp [decodeFrom, hlead, htail.1, hd, he, bind_eq_map]

/-- Octets without a fault among them leave a character unfinished. -/
theorem faultOf_continues (start : Nat) (hlength : tail.length + 1 < width) :
    faultOf start b low high tail width = ⟨b, start, tail.length + 1, .truncated⟩ := by
  have hgo (good : Nat) {rest : List Nat} (hrest : ∀ d ∈ rest, isTail d = true) :
      faultOf.go start b good 0x80 0xBF rest = ⟨b, start, good + rest.length, .truncated⟩ := by
    induction rest generalizing good with
    | nil => rfl
    | cons d rest ih =>
      have hd := hrest d List.mem_cons_self
      simp only [isTail, Bool.and_eq_true, decide_eq_true_eq] at hd
      rw [faultOf.go, if_pos hd, ih _ fun e he => hrest e (List.mem_cons_of_mem d he),
        List.length_cons, Nat.add_assoc, Nat.add_comm 1]
  unfold faultOf
  rw [List.take_of_length_le (by omega)]
  cases tail with
  | nil => rfl
  | cons c rest =>
    rw [faultOf.go, if_pos htail.1, hgo _ htail.2, List.length_cons]
    congr 1
    omega

/-- A character that is broken off. -/
theorem decodeFrom_broken (hlead : lead? b = some (width, low, high))
    (hlength : tail.length + 1 < width) (start : Nat) :
    decodeFrom start (b :: tail) = .error ⟨b, start, tail.length + 1, .truncated⟩ := by
  rw [← faultOf_continues htail start hlength]
  rcases width_of_lead hlead with rfl | rfl | rfl | rfl
  · omega
  all_goals
    rcases tail with _ | ⟨c, _ | ⟨d, _ | ⟨e, rest⟩⟩⟩ <;>
      simp only [List.length_cons, List.length_nil] at hlength
    all_goals first | omega | simp [decodeFrom, hlead]

end

/-- A fault in a character begins where the character does. -/
theorem start_faultOf (start b low high : Nat) (rest : List Nat) (width : Nat) :
    (faultOf start b low high rest width).start = start := by
  have hgo (good low high : Nat) (rest : List Nat) :
      (faultOf.go start b good low high rest).start = start := by
    induction rest generalizing good low high with
    | nil => rfl
    | cons c rest ih =>
      rw [faultOf.go]
      split
      · exact ih _ _ _
      · rfl
  exact hgo _ _ _ _

/-- Octets begin with a fault or with a character. -/
theorem decodeFrom_cons (start b : Nat) (rest : List Nat) :
    (∃ p, decodeFrom start (b :: rest) = .error p ∧ p.start = start) ∨
      ∃ width low high tail rest', lead? b = some (width, low, high) ∧ rest = tail ++ rest' ∧
        tail.length + 1 = width ∧ Continues low high tail := by
  rw [decodeFrom]
  split
  · exact .inl ⟨_, rfl, rfl⟩
  · next width low high hlead =>
    split
    · exact .inr ⟨1, low, high, [], rest, hlead, rfl, rfl, trivial⟩
    · next c rest' =>
      split
      · next hc => exact .inr ⟨2, low, high, [c], rest', hlead, rfl, rfl, ⟨hc, nofun⟩⟩
      · exact .inl ⟨_, rfl, start_faultOf _ _ _ _ _ _⟩
    · next c d rest' =>
      split
      · next hc =>
        exact .inr ⟨3, low, high, [c, d], rest', hlead, rfl, rfl,
          ⟨⟨hc.1, hc.2.1⟩, by simpa using hc.2.2⟩⟩
      · exact .inl ⟨_, rfl, start_faultOf _ _ _ _ _ _⟩
    · next c d e rest' =>
      split
      · next hc =>
        exact .inr ⟨4, low, high, [c, d, e], rest', hlead, rfl, rfl,
          ⟨⟨hc.1, hc.2.1⟩, by simpa using hc.2.2⟩⟩
      · exact .inl ⟨_, rfl, start_faultOf _ _ _ _ _ _⟩
    · exact .inl ⟨_, rfl, start_faultOf _ _ _ _ _ _⟩

/-- What is decoded begins with a character. -/
theorem exists_char_of_decodeFrom {b start : Nat} {rest : List Nat} {cs : List Char}
    (h : decodeFrom start (b :: rest) = .ok cs) :
    ∃ width low high tail rest' cs', lead? b = some (width, low, high) ∧ rest = tail ++ rest' ∧
      tail.length + 1 = width ∧ Continues low high tail ∧
      decodeFrom (start + width) rest' = .ok cs' ∧ cs'.length + 1 = cs.length := by
  rcases decodeFrom_cons start b rest with ⟨p, hp, -⟩ | ⟨width, low, high, tail, rest', hchar⟩
  · exact absurd (h.symm.trans hp) nofun
  · obtain ⟨hlead, rfl, hwidth, htail⟩ := hchar
    obtain ⟨c, hc⟩ := decodeFrom_char htail hlead hwidth
    obtain ⟨cs', hcs', rfl⟩ := map_eq_ok.mp ((hc start rest').symm.trans h)
    exact ⟨width, low, high, tail, rest', cs', hlead, rfl, hwidth, htail, hcs', rfl⟩

/-- No character comes from nothing. -/
theorem length_of_decodeFrom {start : Nat} {octets : List Nat} {cs : List Char}
    (h : decodeFrom start octets = .ok cs) : cs.length ≤ octets.length := by
  induction hlength : octets.length using Nat.strongRecOn generalizing octets start cs with
  | ind length ih =>
    cases octets with
    | nil =>
      obtain rfl := Except.ok.inj h
      exact Nat.zero_le _
    | cons b rest =>
      obtain ⟨width, low, high, tail, rest', cs', -, rfl, -, -, hrest, hcs⟩ :=
        exists_char_of_decodeFrom h
      rw [List.length_cons, List.length_append] at hlength
      have hle : cs'.length ≤ rest'.length := ih rest'.length (by omega) hrest rfl
      omega

/-- Octets that are the characters of a text. -/
def IsText (octets : List Nat) : Prop := ∃ text, decode octets = .ok text

/-- Where octets stand makes no difference to whether they are text. -/
theorem isText_iff {octets : List Nat} (start : Nat) :
    IsText octets ↔ ∃ cs, decodeFrom start octets = .ok cs := by
  have hstart {n m : Nat} {octets : List Nat} {cs : List Char}
      (h : decodeFrom n octets = .ok cs) : ∃ cs, decodeFrom m octets = .ok cs := by
    induction hlength : octets.length using Nat.strongRecOn generalizing n m octets cs with
    | ind length ih =>
      cases octets with
      | nil => exact ⟨[], rfl⟩
      | cons b rest =>
        obtain ⟨width, low, high, tail, rest', cs', hlead, rfl, hwidth, htail, hrest, -⟩ :=
          exists_char_of_decodeFrom h
        have hshorter : rest'.length < length := by
          rw [← hlength, List.length_cons, List.length_append]
          omega
        have hmoved : ∃ cs, decodeFrom (m + width) rest' = .ok cs := ih _ hshorter hrest rfl
        obtain ⟨cs'', hcs''⟩ := hmoved
        obtain ⟨c, hc⟩ := decodeFrom_char htail hlead hwidth
        exact ⟨c :: cs'', by rw [hc, hcs'']; rfl⟩
  constructor
  · intro h
    obtain ⟨text, htext⟩ := h
    obtain ⟨cs, hcs, -⟩ := map_eq_ok.mp htext
    exact hstart hcs
  · intro h
    obtain ⟨cs, hcs⟩ := h
    obtain ⟨cs', hcs'⟩ := hstart (m := 0) hcs
    exact ⟨String.ofList cs', map_eq_ok.mpr ⟨cs', hcs', rfl⟩⟩

theorem isText_nil : IsText [] := ⟨"", rfl⟩

/-- A character and a text are a text. -/
theorem isText_char {b width low high : Nat} {tail rest : List Nat}
    (hlead : lead? b = some (width, low, high)) (hwidth : tail.length + 1 = width)
    (htail : Continues low high tail) (h : IsText rest) : IsText (b :: (tail ++ rest)) := by
  obtain ⟨c, hc⟩ := decodeFrom_char htail hlead hwidth
  obtain ⟨cs, hcs⟩ := (isText_iff (0 + width)).mp h
  exact (isText_iff 0).mpr ⟨c :: cs, by rw [hc, hcs]; rfl⟩

theorem IsText.append {octets more : List Nat} (h : IsText octets) (hmore : IsText more) :
    IsText (octets ++ more) := by
  induction hlength : octets.length using Nat.strongRecOn generalizing octets with
  | ind length ih =>
    cases octets with
    | nil => exact hmore
    | cons b rest =>
      obtain ⟨cs, hcs⟩ := (isText_iff 0).mp h
      obtain ⟨width, low, high, tail, rest', cs', hlead, rfl, hwidth, htail, hrest, -⟩ :=
        exists_char_of_decodeFrom hcs
      rw [List.length_cons, List.length_append] at hlength
      have hboth : IsText (rest' ++ more) :=
        ih rest'.length (by omega) ((isText_iff _).mpr ⟨cs', hrest⟩) rfl
      have hwhole := isText_char hlead hwidth htail hboth
      rwa [← List.append_assoc] at hwhole

/-- The octets in front of a fault are text. -/
theorem isText_take_of_error {start : Nat} {octets : List Nat} {p : Problem}
    (h : decodeFrom start octets = .error p) :
    ∃ k, p.start = start + k ∧ IsText (octets.take k) := by
  induction hlength : octets.length using Nat.strongRecOn generalizing octets start with
  | ind length ih =>
    cases octets with
    | nil => cases h
    | cons b rest =>
      rcases decodeFrom_cons start b rest with
        ⟨q, hq, hstart⟩ | ⟨width, low, high, tail, rest', hchar⟩
      · obtain rfl := Except.error.inj (h.symm.trans hq)
        exact ⟨0, hstart, isText_nil⟩
      · obtain ⟨hlead, rfl, hwidth, htail⟩ := hchar
        obtain ⟨c, hc⟩ := decodeFrom_char htail hlead hwidth
        have herror : decodeFrom (start + width) rest' = .error p := by
          rw [hc] at h
          cases hrest : decodeFrom (start + width) rest' with
          | error q => rw [hrest] at h; exact h
          | ok cs => rw [hrest] at h; cases h
        rw [List.length_cons, List.length_append] at hlength
        obtain ⟨k, hk, htext⟩ := ih rest'.length (by omega) herror rfl
        refine ⟨width + k, by omega, ?_⟩
        have htake : (b :: (tail ++ rest')).take (width + k) = b :: (tail ++ rest'.take k) := by
          rw [← hwidth, Nat.add_right_comm, List.take_succ_cons, List.take_length_add_append]
        rw [htake]
        exact isText_char hlead hwidth htail htext

theorem Continues.of_append {low high : Nat} {tail more : List Nat}
    (h : Continues low high (tail ++ more)) : Continues low high tail := by
  cases tail with
  | nil => trivial
  | cons c rest => exact ⟨h.1, fun d hd => h.2 d (List.mem_append_left more hd)⟩

/-- The first part of a text is text itself, or ends inside a character that begins somewhere in
it; from there on the rest is text. -/
theorem decodeFrom_of_append {octets more : List Nat} (h : IsText (octets ++ more)) (start : Nat) :
    (∃ cs, decodeFrom start octets = .ok cs) ∧ IsText more ∨
      ∃ p k, decodeFrom start octets = .error p ∧ p.reason = .truncated ∧ p.start = start + k ∧
        IsText (octets.drop k ++ more) := by
  induction hlength : octets.length using Nat.strongRecOn generalizing octets start with
  | ind length ih =>
    cases octets with
    | nil => exact .inl ⟨⟨[], rfl⟩, h⟩
    | cons b rest =>
      obtain ⟨cs, hcs⟩ := (isText_iff 0).mp h
      obtain ⟨width, low, high, tail, rest', cs', hlead, hsplit, hwidth, htail, hrest, -⟩ :=
        exists_char_of_decodeFrom hcs
      have htext : IsText rest' := (isText_iff _).mpr ⟨cs', hrest⟩
      -- Either the first part holds the whole character, or the character is broken off in it.
      by_cases hwhole : tail.length ≤ rest.length
      · obtain ⟨after, rfl, rfl⟩ : ∃ after, rest = tail ++ after ∧ rest' = after ++ more := by
          rcases List.append_eq_append_iff.mp hsplit with ⟨after, ha, hm⟩ | ⟨after, ha, hm⟩
          · have hlen := congrArg List.length ha
            rw [List.length_append] at hlen
            obtain rfl : after = [] := List.eq_nil_of_length_eq_zero (by omega)
            exact ⟨[], by simpa using ha.symm, by simpa using hm.symm⟩
          · exact ⟨after, ha, hm⟩
        obtain ⟨c, hc⟩ := decodeFrom_char htail hlead hwidth
        have hshorter : after.length < length := by
          rw [← hlength, List.length_cons, List.length_append]
          omega
        rcases ih _ hshorter htext (start + width) rfl with ⟨⟨cs, hok⟩, hmore⟩ | hbroken
        · exact .inl ⟨⟨c :: cs, by rw [hc, hok]; rfl⟩, hmore⟩
        · obtain ⟨p, k, hp, hreason, hstart, hdrop⟩ := hbroken
          refine .inr ⟨p, width + k, by rw [hc, hp]; rfl, hreason, by omega, ?_⟩
          have hskip : (b :: (tail ++ after)).drop (width + k) = after.drop k := by
            rw [← hwidth, ← List.cons_append, ← List.drop_drop]
            simp
          rwa [hskip]
      · obtain ⟨after, rfl⟩ : ∃ after, tail = rest ++ after := by
          rcases List.append_eq_append_iff.mp hsplit with ⟨after, ha, -⟩ | ⟨after, ha, -⟩
          · exact ⟨after, ha⟩
          · rw [ha, List.length_append] at hwhole
            omega
        rw [List.length_append] at hwidth hwhole
        have hbroken := decodeFrom_broken htail.of_append hlead (by omega) start
        exact .inr ⟨_, 0, hbroken, rfl, rfl, h⟩

end Utf8

namespace Text.Stream

open Utf8

theorem decodeSome_of_ok {octets : List Nat} {cs : List Char}
    (h : decodeFrom 0 octets = .ok cs) : decodeSome octets = (cs, none) := by
  simp [decodeSome, h]

/-- In front of a fault are the characters of the octets in front of it. -/
theorem decodeSome_of_error {octets : List Nat} {p : Utf8.Problem}
    (h : decodeFrom 0 octets = .error p) :
    ∃ cs, decodeSome octets = (cs, some p) ∧ decodeFrom 0 (octets.take p.start) = .ok cs := by
  obtain ⟨k, hk, htext⟩ := isText_take_of_error h
  obtain rfl : p.start = k := hk.trans (Nat.zero_add k)
  obtain ⟨cs, hcs⟩ := (isText_iff 0).mp htext
  exact ⟨cs, by simp [decodeSome, h, hcs, Except.toOption], hcs⟩

/-- What one step of a reading comes to: the end, with or without a character that is broken off, or
another chunk, which is text, or waits for the next one at its end, or has a fault. -/
inductive Step (fuel : Nat) (s : State) : Reading → Prop
  | whole {cs : List Char} : s.octets = [] → s.broken = [] →
      cs.length ≤ s.chars.size + s.carriage.toNat → Step fuel s ⟨cs, none⟩
  | broken : s.octets = [] → Step fuel s ⟨s.chars.toList, (decodeSome s.broken).2⟩
  | text {chunk rest : List Nat} {cs : List Char} : chunk ≠ [] → s.octets = chunk ++ rest →
      decodeFrom 0 (s.broken ++ chunk) = .ok cs →
      Step fuel s (run fuel (s.take chunk.length cs []))
  | waiting {chunk rest : List Nat} {cs : List Char} {p : Utf8.Problem} :
      chunk ≠ [] → s.octets = chunk ++ rest → decodeFrom 0 (s.broken ++ chunk) = .error p →
      decodeFrom 0 ((s.broken ++ chunk).take p.start) = .ok cs →
      Step fuel s (run fuel (s.take chunk.length cs ((s.broken ++ chunk).drop p.start)))
  | fault {chunk rest : List Nat} {p : Utf8.Problem} : s.octets = chunk ++ rest →
      decodeFrom 0 (s.broken ++ chunk) = .error p →
      waits p ((s.broken ++ chunk).drop p.start) = false → Step fuel s ⟨s.chars.toList, some p⟩

theorem demand_pos (d : Density) (missing : Nat) : 0 < d.demand missing :=
  Nat.lt_of_lt_of_le (by decide) (Nat.le_max_left chunkSize _)

theorem run_step (fuel : Nat) (s : State) : Step fuel s (run (fuel + 1) s) := by
  rw [run]
  by_cases hend : s.octets = []
  · rw [if_pos (List.isEmpty_iff.mpr hend)]
    by_cases hbroken : s.broken = []
    · rw [if_pos (List.isEmpty_iff.mpr hbroken)]
      refine .whole hend hbroken ?_
      cases s.carriage <;> simp
    · rw [if_neg (by simpa using hbroken)]
      exact .broken hend
  · rw [if_neg (by simpa using hend)]
    obtain ⟨count, hcount⟩ : ∃ count,
        count = s.density.demand (blockSize - s.chars.size % blockSize) := ⟨_, rfl⟩
    have hpos : 0 < count := hcount ▸ demand_pos _ _
    rw [← hcount]
    have hparts : s.octets = s.octets.take count ++ s.octets.drop count :=
      (List.take_append_drop count s.octets).symm
    have hne : s.octets.take count ≠ [] := by
      intro hnil
      rcases List.take_eq_nil_iff.mp hnil with hzero | hnil
      · omega
      · exact hend hnil
    cases hdecoded : decodeFrom 0 (s.broken ++ s.octets.take count) with
    | ok cs =>
      simp only [decodeSome_of_ok hdecoded]
      exact .text hne hparts hdecoded
    | error p =>
      obtain ⟨cs, hsome, hcs⟩ := decodeSome_of_error hdecoded
      simp only [hsome]
      by_cases hwaits : waits p ((s.broken ++ s.octets.take count).drop p.start) = true
      · rw [if_pos hwaits]
        exact .waiting hne hparts hdecoded hcs
      · rw [if_neg hwaits]
        exact .fault hparts hdecoded (Bool.eq_false_iff.mpr hwaits)

variable {s : State} {chunk rest : List Nat}

theorem octets_take (h : s.octets = chunk ++ rest) (cs : List Char) (broken : List Nat) :
    (s.take chunk.length cs broken).octets = rest := by
  simp [State.take, h]

theorem length_rest (hne : chunk ≠ []) (h : s.octets = chunk ++ rest) :
    rest.length < s.octets.length := by
  have hpos := List.length_pos_of_ne_nil hne
  rw [h, List.length_append]
  omega

/-- What is not read yet, with what was broken off in front of it, stays text from chunk to
chunk. -/
theorem fault_run (fuel : Nat) (h : IsText (s.broken ++ s.octets)) :
    (run fuel s).fault = none := by
  induction fuel generalizing s with
  | zero => rfl
  | succ fuel ih =>
    have hstep := run_step fuel s
    generalize run (fuel + 1) s = reading at hstep ⊢
    cases hstep with
    | whole _ _ _ => rfl
    | broken hend =>
      rw [hend, List.append_nil] at h
      obtain ⟨cs, hcs⟩ := (isText_iff 0).mp h
      rw [decodeSome_of_ok hcs]
    | text hne hparts hok =>
      rw [hparts, ← List.append_assoc] at h
      rcases decodeFrom_of_append h 0 with ⟨-, hrest⟩ | ⟨p, k, hp, -⟩
      · exact ih (by rwa [octets_take hparts])
      · exact absurd (hok.symm.trans hp) nofun
    | waiting hne hparts herror _ =>
      rw [hparts, ← List.append_assoc] at h
      rcases decodeFrom_of_append h 0 with ⟨⟨cs, hcs⟩, -⟩ | ⟨q, k, hq, -, hstart, hrest⟩
      · exact absurd (herror.symm.trans hcs) nofun
      · obtain rfl := Except.error.inj (herror.symm.trans hq)
        obtain rfl := hstart.trans (Nat.zero_add k)
        exact ih (by rwa [octets_take hparts])
    | fault hparts herror hwaits =>
      rw [hparts, ← List.append_assoc] at h
      rcases decodeFrom_of_append h 0 with ⟨⟨cs, hcs⟩, -⟩ | ⟨q, k, hq, hreason, -, -⟩
      · exact absurd (herror.symm.trans hcs) nofun
      · obtain rfl := Except.error.inj (herror.symm.trans hq)
        simp [waits, hreason] at hwaits

/-- What is read without a fault is text, from the last chunk back to the first. -/
theorem isText_of_run (fuel : Nat) (hfuel : s.octets.length < fuel)
    (h : (run fuel s).fault = none) : IsText (s.broken ++ s.octets) := by
  induction fuel generalizing s with
  | zero => omega
  | succ fuel ih =>
    have hstep := run_step fuel s
    generalize run (fuel + 1) s = reading at hstep h
    cases hstep with
    | whole hend hbroken _ =>
      rw [hend, hbroken]
      exact isText_nil
    | broken hend =>
      rw [hend, List.append_nil]
      cases hdecoded : decodeFrom 0 s.broken with
      | ok cs => exact (isText_iff 0).mpr ⟨cs, hdecoded⟩
      | error p =>
        obtain ⟨cs, hsome, -⟩ := decodeSome_of_error hdecoded
        rw [hsome] at h
        cases h
    | @text chunk rest cs hne hparts hok =>
      have hshorter : (s.take chunk.length cs []).octets.length < fuel := by
        have hrest := length_rest hne hparts
        rw [octets_take hparts]
        omega
      have hrest := ih hshorter h
      rw [octets_take hparts] at hrest
      rw [hparts, ← List.append_assoc]
      exact ((isText_iff 0).mpr ⟨cs, hok⟩).append hrest
    | @waiting chunk rest cs p hne hparts _ hcs =>
      have hshorter :
          (s.take chunk.length cs ((s.broken ++ chunk).drop p.start)).octets.length < fuel := by
        have hrest := length_rest hne hparts
        rw [octets_take hparts]
        omega
      have hrest := ih hshorter h
      rw [octets_take hparts] at hrest
      have hwhole := ((isText_iff 0).mpr ⟨cs, hcs⟩).append hrest
      rwa [State.take, ← List.append_assoc, List.take_append_drop, List.append_assoc,
        ← hparts] at hwhole
    | fault _ _ _ => cases h

/-- A file is read without a fault when it is text, and only then. -/
theorem fault_read_eq_none_iff {octets : List Nat} :
    (read octets).fault = none ↔ IsText octets := by
  constructor
  · intro h
    exact isText_of_run (s := { octets }) _ (Nat.lt_succ_self _) h
  · intro h
    exact fault_run (s := { octets }) _ h

theorem length_unixBreaks (cs : List Char) : (unixBreaks cs).length ≤ cs.length := by
  fun_induction unixBreaks cs <;> simp only [List.length_cons, List.length_nil] <;> omega

/-- What of the file is read or waits to be. -/
def State.weight (s : State) : Nat :=
  s.chars.size + s.carriage.toNat + s.broken.length + s.octets.length

/-- A carriage return that waits is one character, in the chunk that it ends and in the next. -/
theorem State.chars_take (s : State) (count : Nat) (cs : List Char) (broken : List Nat) :
    (s.take count cs broken).chars.size + (s.take count cs broken).carriage.toNat ≤
      s.chars.size + s.carriage.toNat + cs.length := by
  simp only [State.take, Array.size_append, List.size_toArray]
  cases cs with
  | nil => simp [unixBreaks]
  | cons c cs =>
    obtain ⟨all, hall⟩ : ∃ all,
        all = if s.carriage && !(c :: cs).isEmpty then '\r' :: c :: cs else c :: cs := ⟨_, rfl⟩
    have hlength : all.length = s.carriage.toNat + (cs.length + 1) := by
      rw [hall]
      cases s.carriage <;> simp [Nat.add_comm]
    have hne : all.isEmpty = false := by
      rw [hall]
      cases s.carriage <;> rfl
    rw [← hall, hne]
    by_cases hlast : all.getLast? = some '\r'
    · have hbreaks := length_unixBreaks all.dropLast
      rw [List.length_dropLast, hlength] at hbreaks
      simp only [hlast, if_true, List.length_cons, decide_true, Bool.toNat_true, if_false,
        Bool.false_eq_true]
      omega
    · have hbreaks := length_unixBreaks all
      simp only [hlast, List.length_cons, decide_false, Bool.toNat_false, if_false,
        Bool.false_eq_true]
      omega

/-- Decoding makes no more of a chunk. -/
theorem weight_take {cs : List Char} {broken : List Nat} (h : s.octets = chunk ++ rest)
    (hcs : cs.length + broken.length ≤ (s.broken ++ chunk).length) :
    (s.take chunk.length cs broken).weight ≤ s.weight := by
  have hchars := s.chars_take chunk.length cs broken
  have hbroken : (s.take chunk.length cs broken).broken = broken := rfl
  rw [List.length_append] at hcs
  rw [State.weight, State.weight, octets_take h, hbroken, h, List.length_append]
  omega

theorem length_run (fuel : Nat) : (run fuel s).chars.length ≤ s.weight := by
  induction fuel generalizing s with
  | zero =>
    simp only [run, State.weight, Array.length_toList]
    omega
  | succ fuel ih =>
    have hstep := run_step fuel s
    generalize run (fuel + 1) s = reading at hstep ⊢
    cases hstep with
    | whole _ _ hcs =>
      simp only [State.weight]
      omega
    | broken hend =>
      simp only [State.weight, Array.length_toList]
      omega
    | @text chunk rest cs hne hparts hok =>
      exact Nat.le_trans ih (weight_take hparts (length_of_decodeFrom hok))
    | @waiting chunk rest cs p hne hparts _ hcs =>
      refine Nat.le_trans ih (weight_take hparts ?_)
      have hle := length_of_decodeFrom hcs
      rw [List.length_take] at hle
      rw [List.length_drop]
      omega
    | fault _ _ _ =>
      simp only [State.weight, Array.length_toList]
      omega

/-- No more characters are read than the file has octets. -/
theorem length_read (octets : List Nat) : (read octets).chars.length ≤ octets.length := by
  have hrun := length_run (s := { octets }) (octets.length + 1)
  simpa [State.weight, read] using hrun

end Text.Stream

end DecisionGate
