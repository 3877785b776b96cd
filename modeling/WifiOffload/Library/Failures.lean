import Mathlib

/-!
# How a computation may fail

`FailsOnly P` says of an `Except` computation that every error it can end with satisfies `P`.
It is kept by sequencing and by a `mapM` over a list, whatever the values in between. The error of
a sequence is that of its first part which fails, and `FirstIsBad` says so of a list.
-/

/-- Every error that the computation ends with satisfies `P`. -/
def FailsOnly {Error α : Type*} (P : Error → Prop) (x : Except Error α) : Prop :=
  ∀ e, x = .error e → P e

namespace FailsOnly

variable {Error : Type*} {α β : Type*} {P : Error → Prop}

theorem ok (a : α) : FailsOnly P (.ok a) := fun _ h => by cases h

theorem error {e : Error} (h : P e) : FailsOnly P (.error e : Except Error α) := by
  rintro e' ⟨⟩
  exact h

theorem bind {α β : Type*} {x : Except Error α} {f : α → Except Error β} (hx : FailsOnly P x)
    (hf : ∀ a, FailsOnly P (f a)) : FailsOnly P (x.bind f) := by
  cases x with
  | ok a => exact hf a
  | error e => exact error (hx e rfl)

theorem mapM {α β : Type*} {f : α → Except Error β} {xs : List α}
    (hf : ∀ a ∈ xs, FailsOnly P (f a)) : FailsOnly P (xs.mapM f) := by
  induction xs with
  | nil => exact ok []
  | cons x xs ih =>
    rw [List.mapM_cons]
    exact (hf x (by simp)).bind fun y => (ih fun a ha => hf a (by simp [ha])).bind fun ys => ok _

end FailsOnly

/-! ## The first failure -/

section First

variable {Error α β : Type*} {e : Error}

theorem bind_eq_error_iff {x : Except Error α} {f : α → Except Error β} :
    x.bind f = .error e ↔ x = .error e ∨ ∃ a, x = .ok a ∧ f a = .error e := by
  cases x <;> simp [Except.bind]

/-- The elements before some element are good, and that one is bad. -/
def FirstIsBad (good bad : α → Prop) (xs : List α) : Prop :=
  ∃ pre x post, xs = pre ++ x :: post ∧ (∀ y ∈ pre, good y) ∧ bad x

variable {good bad : α → Prop} {x : α} {xs : List α}

@[simp] theorem not_firstIsBad_nil : ¬ FirstIsBad good bad [] := by
  rintro ⟨pre, x, post, h, -⟩
  simp at h

theorem firstIsBad_cons :
    FirstIsBad good bad (x :: xs) ↔ bad x ∨ good x ∧ FirstIsBad good bad xs := by
  constructor
  · rintro ⟨pre, y, post, hxs, hpre, hy⟩
    cases pre with
    | nil =>
      obtain ⟨rfl, rfl⟩ := List.cons.inj hxs
      exact .inl hy
    | cons z pre =>
      obtain ⟨rfl, rfl⟩ := List.cons.inj hxs
      exact .inr ⟨hpre x (by simp), pre, y, post, rfl, fun w hw => hpre w (by simp [hw]), hy⟩
  · rintro (hx | ⟨hx, pre, y, post, rfl, hpre, hy⟩)
    · exact ⟨[], x, xs, rfl, by simp, hx⟩
    · exact ⟨x :: pre, y, post, rfl, List.forall_mem_cons.mpr ⟨hx, hpre⟩, hy⟩

theorem FirstIsBad.congr {good' bad' : α → Prop} (hgood : ∀ x, good x ↔ good' x)
    (hbad : ∀ x, bad x ↔ bad' x) : FirstIsBad good bad xs ↔ FirstIsBad good' bad' xs := by
  simp only [FirstIsBad, hgood, hbad]

/-- A `mapM` ends with the error of the first element that has one. -/
theorem mapM_eq_error_iff {f : α → Except Error β} : xs.mapM f = .error e ↔
    FirstIsBad (fun x => ∃ y, f x = .ok y) (fun x => f x = .error e) xs := by
  induction xs with
  | nil => simp [pure, Except.pure]
  | cons x xs ih =>
    rw [List.mapM_cons, firstIsBad_cons, ← ih]
    cases hx : f x with
    | error e' => simp [bind, Except.bind]
    | ok y => cases xs.mapM f <;> simp [bind, Except.bind, pure, Except.pure]

end First
