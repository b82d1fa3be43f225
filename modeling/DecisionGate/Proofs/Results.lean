import Mathlib.Data.List.Forall2
import DecisionGate.Failure

/-!
# Steps that may fail

A step that gave a value hands it to the next one, and a failed step is the end. A list of steps
fails with the first of them that fails. A caller that reports failures of the library's own kinds
lets all others through; those escape.
-/
namespace DecisionGate

section
variable {ε α β : Type}

@[simp] theorem ok_bind (a : α) (f : α → Except ε β) : (Except.ok a >>= f) = f a := rfl

@[simp] theorem error_bind (e : ε) (f : α → Except ε β) :
    ((Except.error e : Except ε α) >>= f) = .error e := rfl

@[simp] theorem mapError_ok {ε' : Type} (g : ε → ε') (a : α) :
    (Except.ok a : Except ε α).mapError g = .ok a := rfl

@[simp] theorem mapError_error {ε' : Type} (g : ε → ε') (e : ε) :
    (Except.error e : Except ε α).mapError g = .error (g e) := rfl

theorem bind_eq_ok {r : Except ε α} {f : α → Except ε β} {b : β} :
    (r >>= f) = .ok b ↔ ∃ a, r = .ok a ∧ f a = .ok b := by
  cases r <;> simp

theorem bind_eq_error {r : Except ε α} {f : α → Except ε β} {e : ε} :
    (r >>= f) = .error e ↔ r = .error e ∨ ∃ a, r = .ok a ∧ f a = .error e := by
  cases r <;> simp

theorem map_eq_ok {r : Except ε α} {f : α → β} {b : β} :
    r.map f = .ok b ↔ ∃ a, r = .ok a ∧ f a = b := by
  cases r <;> simp [Except.map]

theorem map_eq_error {r : Except ε α} {f : α → β} {e : ε} :
    r.map f = .error e ↔ r = .error e := by
  cases r <;> simp [Except.map]

theorem mapError_eq_ok {ε' : Type} {g : ε → ε'} {r : Except ε α} {a : α} :
    r.mapError g = .ok a ↔ r = .ok a := by
  cases r <;> simp

variable {f : α → Except ε β}

theorem mapM_cons_ok {x : α} {y : β} (h : f x = .ok y) (xs : List α) :
    (x :: xs).mapM f = (xs.mapM f).map (y :: ·) := by
  rw [List.mapM_cons, h, ok_bind]
  cases xs.mapM f <;> rfl

theorem mapM_cons_error {x : α} {e : ε} (h : f x = .error e) (xs : List α) :
    (x :: xs).mapM f = .error e := by
  rw [List.mapM_cons, h, error_bind]

theorem mapM_cons_eq_ok {x : α} {xs : List α} {ys : List β} :
    (x :: xs).mapM f = .ok ys ↔
      ∃ y rest, f x = .ok y ∧ xs.mapM f = .ok rest ∧ y :: rest = ys := by
  cases hx : f x with
  | error e => simp [mapM_cons_error hx]
  | ok y => simp [mapM_cons_ok hx, map_eq_ok]

theorem mapM_eq_error_iff {xs : List α} {e : ε} :
    xs.mapM f = .error e ↔ ∃ before x after, xs = before ++ x :: after ∧
      (∀ y ∈ before, ∃ b, f y = .ok b) ∧ f x = .error e := by
  induction xs with
  | nil => simp [pure, Except.pure]
  | cons x xs ih =>
    cases hx : f x with
    | error e' =>
      rw [mapM_cons_error hx]
      constructor
      · intro h
        exact ⟨[], x, xs, rfl, nofun, hx.trans (congrArg Except.error (Except.error.inj h))⟩
      · intro hcase
        obtain ⟨before, y, after, hsplit, hok, hy⟩ := hcase
        cases before with
        | nil =>
          obtain ⟨rfl, -⟩ := List.cons.inj hsplit
          exact congrArg Except.error (Except.error.inj (hx.symm.trans hy))
        | cons z before =>
          obtain ⟨rfl, -⟩ := List.cons.inj hsplit
          obtain ⟨b, hb⟩ := hok x List.mem_cons_self
          exact absurd (hx.symm.trans hb) (by simp)
    | ok b =>
      have hstep : (x :: xs).mapM f = .error e ↔ xs.mapM f = .error e := by
        rw [mapM_cons_ok hx]
        cases xs.mapM f <;> simp [Except.map]
      rw [hstep, ih]
      constructor
      · intro hcase
        obtain ⟨before, y, after, rfl, hok, hy⟩ := hcase
        refine ⟨x :: before, y, after, rfl, ?_, hy⟩
        rintro z (_ | ⟨_, hz⟩)
        · exact ⟨b, hx⟩
        · exact hok z hz
      · intro hcase
        obtain ⟨before, y, after, hsplit, hok, hy⟩ := hcase
        cases before with
        | nil =>
          obtain ⟨rfl, -⟩ := List.cons.inj hsplit
          exact absurd (hx.symm.trans hy) (by simp)
        | cons z before =>
          obtain ⟨rfl, rfl⟩ := List.cons.inj hsplit
          exact ⟨before, y, after, rfl, fun w hw => hok w (List.mem_cons_of_mem _ hw), hy⟩

/-- A list of steps that comes through gives one value for each step, in order. -/
theorem forall₂_of_mapM_ok {xs : List α} {ys : List β} (h : xs.mapM f = .ok ys) :
    List.Forall₂ (fun x y => f x = .ok y) xs ys := by
  induction xs generalizing ys with
  | nil =>
    obtain rfl : [] = ys := Except.ok.inj h
    exact .nil
  | cons x xs ih =>
    cases hx : f x with
    | error e =>
      rw [mapM_cons_error hx] at h
      cases h
    | ok y =>
      rw [mapM_cons_ok hx] at h
      cases hxs : xs.mapM f with
      | error e => simp [hxs, Except.map] at h
      | ok rest =>
        simp only [hxs, Except.map, Except.ok.injEq] at h
        subst h
        exact .cons hx (ih hxs)

/-- What a list of steps gives is what its steps give. -/
theorem mem_of_mapM_ok {xs : List α} {ys : List β} (h : xs.mapM f = .ok ys) (y : β) :
    y ∈ ys ↔ ∃ x ∈ xs, f x = .ok y := by
  have heach := forall₂_of_mapM_ok h
  clear h
  induction heach with
  | nil => simp
  | cons hx _ ih => simp [hx, ih, eq_comm]

/-- A step gives no value. -/
def Fails (r : Except ε α) : Prop := ∃ e, r = .error e

@[simp] theorem fails_error (e : ε) : Fails (.error e : Except ε α) := ⟨e, rfl⟩

@[simp] theorem not_fails_ok (a : α) : ¬ Fails (.ok a : Except ε α) := nofun

@[simp] theorem fails_map {g : α → β} {r : Except ε α} : Fails (r.map g) ↔ Fails r := by
  cases r <;> simp [Except.map]

@[simp] theorem fails_mapError {ε' : Type} {g : ε → ε'} {r : Except ε α} :
    Fails (r.mapError g) ↔ Fails r := by
  cases r <;> simp

theorem fails_bind {r : Except ε α} :
    Fails (r >>= f) ↔ Fails r ∨ ∃ a, r = .ok a ∧ Fails (f a) := by
  cases r <;> simp

/-- A step on whose value it does not depend whether the rest fails. -/
theorem fails_bind_iff {r : Except ε α} {rest : Prop} (h : ∀ a, Fails (f a) ↔ rest) :
    Fails (r >>= f) ↔ Fails r ∨ rest := by
  cases r <;> simp [h]

theorem exists_ok_iff {r : Except ε α} : (∃ a, r = .ok a) ↔ ¬ Fails r := by
  cases r <;> simp

theorem any_toOption_iff {r : Except ε α} {p : α → Bool} :
    r.toOption.any p = true ↔ ∃ a, r = .ok a ∧ p a = true := by
  cases r <;> simp [Except.toOption]

theorem isSome_toOption_iff {r : Except ε α} : r.toOption.isSome = true ↔ ∃ a, r = .ok a := by
  cases r <;> simp [Except.toOption]

theorem isNone_toOption_iff {r : Except ε α} : r.toOption.isNone = true ↔ Fails r := by
  cases r <;> simp [Except.toOption]

theorem fails_mapM {xs : List α} : Fails (xs.mapM f) ↔ ∃ x ∈ xs, Fails (f x) := by
  induction xs with
  | nil => simp [pure, Except.pure]
  | cons x xs ih =>
    cases hx : f x with
    | error e => simp [mapM_cons_error hx, hx]
    | ok b => simp [mapM_cons_ok hx, hx, ih]

/-- Steps that know their places, and do not look at them to see whether they fail. -/
theorem forall_mem_zipIdx {p : α → Prop} {xs : List α} {n : Nat} :
    (∀ q ∈ xs.zipIdx n, p q.1) ↔ ∀ x ∈ xs, p x := by
  rw [← List.forall_mem_map (f := Prod.fst), List.zipIdx_map_fst]

theorem exists_mem_zipIdx {p : α → Prop} {xs : List α} {n : Nat} :
    (∃ q ∈ xs.zipIdx n, p q.1) ↔ ∃ x ∈ xs, p x := by
  constructor
  · intro h
    obtain ⟨q, hq, hp⟩ := h
    exact ⟨q.1, List.fst_mem_of_mem_zipIdx hq, hp⟩
  · intro h
    obtain ⟨x, hx, hp⟩ := h
    rw [← List.zipIdx_map_fst n xs] at hx
    obtain ⟨q, hq, rfl⟩ := List.mem_map.mp hx
    exact ⟨q, hq, hp⟩

theorem exists_of_mapM_ok {xs : List α} {ys : List β} (h : xs.mapM f = .ok ys) {x : α}
    (hx : x ∈ xs) : ∃ y ∈ ys, f x = .ok y := by
  cases hy : f x with
  | ok y => exact ⟨y, (mem_of_mapM_ok h y).mpr ⟨x, hx, hy⟩, rfl⟩
  | error e =>
    obtain ⟨e', he'⟩ := fails_mapM.mpr ⟨x, hx, e, hy⟩
    simp [h] at he'

theorem mapM_zipIdx_eq_error_iff {g : α × Nat → Except ε β} {xs : List α} {e : ε} :
    xs.zipIdx.mapM g = .error e ↔ ∃ before x after, xs = before ++ x :: after ∧
      (∀ p ∈ before.zipIdx, ∃ b, g p = .ok b) ∧ g (x, before.length) = .error e := by
  rw [mapM_eq_error_iff]
  constructor
  · intro h
    obtain ⟨before, ⟨x, i⟩, after, hsplit, hok, hx⟩ := h
    have hxs : xs = before.map Prod.fst ++ x :: after.map Prod.fst := by
      simpa using congrArg (List.map Prod.fst) hsplit
    have hzip : xs.zipIdx = (before.map Prod.fst).zipIdx ++
        (x, before.length) :: (after.map Prod.fst).zipIdx (before.length + 1) := by
      rw [hxs, List.zipIdx_append]
      simp
    obtain ⟨hbefore, hrest⟩ := List.append_inj (hsplit.symm.trans hzip) (by simp)
    obtain ⟨hpair, -⟩ := List.cons.inj hrest
    refine ⟨before.map Prod.fst, x, after.map Prod.fst, hxs, ?_, ?_⟩
    · rw [← hbefore]
      exact hok
    · rw [List.length_map, ← hpair]
      exact hx
  · intro h
    obtain ⟨before, x, after, rfl, hok, hx⟩ := h
    refine ⟨before.zipIdx, (x, before.length), after.zipIdx (before.length + 1), ?_, hok, hx⟩
    rw [List.zipIdx_append]
    simp

end

/-- A result is a failure that is none of the library's own. -/
def Escapes {α : Type} (r : Except Failure α) : Prop := ∃ f, r = .error f ∧ f.isDomain = false

variable {α β : Type}

@[simp] theorem escapes_error {f : Failure} :
    Escapes (.error f : Except Failure α) ↔ f.isDomain = false := by
  simp [Escapes]

@[simp] theorem not_escapes_ok (a : α) : ¬ Escapes (.ok a : Except Failure α) := by
  simp [Escapes]

@[simp] theorem escapes_map {g : α → β} {r : Except Failure α} :
    Escapes (r.map g) ↔ Escapes r := by
  cases r <;> simp [Except.map]

/-- A chain of two steps escapes with the first, or with the second after the first. -/
theorem escapes_bind {r : Except Failure α} {g : α → Except Failure β} :
    Escapes (r >>= g) ↔ Escapes r ∨ ∃ a, r = .ok a ∧ Escapes (g a) := by
  cases r <;> simp

/-- A list of steps escapes with the first of them that fails, if that one escapes. -/
theorem escapes_mapM {f : α → Except Failure β} {xs : List α} :
    Escapes (xs.mapM f) ↔ ∃ before x after, xs = before ++ x :: after ∧
      (∀ y ∈ before, ¬ Fails (f y)) ∧ Escapes (f x) := by
  constructor
  · intro h
    obtain ⟨e, he, hdomain⟩ := h
    obtain ⟨before, x, after, hsplit, hok, hx⟩ := mapM_eq_error_iff.mp he
    exact ⟨before, x, after, hsplit, fun y hy => exists_ok_iff.mp (hok y hy), e, hx, hdomain⟩
  · intro h
    obtain ⟨before, x, after, hsplit, hok, e, hx, hdomain⟩ := h
    exact ⟨e, mapM_eq_error_iff.mpr
      ⟨before, x, after, hsplit, fun y hy => exists_ok_iff.mpr (hok y hy), hx⟩, hdomain⟩

theorem escapes_mapM_zipIdx {g : α × Nat → Except Failure β} {xs : List α} :
    Escapes (xs.zipIdx.mapM g) ↔ ∃ before x after, xs = before ++ x :: after ∧
      (∀ p ∈ before.zipIdx, ¬ Fails (g p)) ∧ Escapes (g (x, before.length)) := by
  constructor
  · intro h
    obtain ⟨e, he, hdomain⟩ := h
    obtain ⟨before, x, after, hsplit, hok, hx⟩ := mapM_zipIdx_eq_error_iff.mp he
    exact ⟨before, x, after, hsplit, fun p hp => exists_ok_iff.mp (hok p hp), e, hx, hdomain⟩
  · intro h
    obtain ⟨before, x, after, hsplit, hok, e, hx, hdomain⟩ := h
    exact ⟨e, mapM_zipIdx_eq_error_iff.mpr
      ⟨before, x, after, hsplit, fun p hp => exists_ok_iff.mpr (hok p hp), hx⟩, hdomain⟩

/-- A step has no failures of the library's own kinds. -/
def Foreign (r : Except Failure α) : Prop := ∀ f, r = .error f → f.isDomain = false

theorem escapes_iff_fails {r : Except Failure α} (h : Foreign r) : Escapes r ↔ Fails r := by
  constructor
  · intro hx
    obtain ⟨f, hf, -⟩ := hx
    exact ⟨f, hf⟩
  · intro hx
    obtain ⟨f, hf⟩ := hx
    exact ⟨f, hf, h f hf⟩

@[simp] theorem foreign_ok (a : α) : Foreign (.ok a : Except Failure α) := nofun

@[simp] theorem foreign_error {f : Failure} :
    Foreign (.error f : Except Failure α) ↔ f.isDomain = false := by
  simp [Foreign]

theorem foreign_map {g : α → β} {r : Except Failure α} (h : Foreign r) : Foreign (r.map g) := by
  cases r with
  | error f => simpa [Except.map] using h
  | ok a => simp [Except.map]

theorem foreign_bind {r : Except Failure α} {g : α → Except Failure β} (h : Foreign r)
    (hg : ∀ a, Foreign (g a)) : Foreign (r >>= g) := by
  cases r with
  | error f => simpa using h
  | ok a => exact hg a

theorem foreign_mapM {f : α → Except Failure β} {xs : List α} (h : ∀ x, Foreign (f x)) :
    Foreign (xs.mapM f) := by
  intro e he
  obtain ⟨-, x, -, -, -, hx⟩ := mapM_eq_error_iff.mp he
  exact h x e hx

/-- A step gives a value of a kind. -/
def Gives {ε α : Type} (r : Except ε α) (p : α → Prop) : Prop := ∃ a, r = .ok a ∧ p a

section
variable {ε α β : Type} {r : Except ε α} {p : α → Prop} {q : β → Prop}

theorem gives_ok {a : α} (h : p a) : Gives (.ok a : Except ε α) p := ⟨a, rfl, h⟩

theorem Gives.bind {f : α → Except ε β} (h : Gives r p) (hf : ∀ a, p a → Gives (f a) q) :
    Gives (r >>= f) q := by
  obtain ⟨a, rfl, ha⟩ := h
  exact hf a ha

theorem Gives.mono {p' : α → Prop} (h : Gives r p) (hp : ∀ a, p a → p' a) : Gives r p' := by
  obtain ⟨a, ha, hpa⟩ := h
  exact ⟨a, ha, hp a hpa⟩

end

end DecisionGate
