import Mathlib

/-!
# Operations that may stop with an error

An `Attempt` runs on a state and either goes on or stops with an error; the state it reached
is kept in both cases, so that what a failed operation leaves behind can be stated. `andThen`
is sequencing that stops at the first error and `eachFrom` the loop that does: it passes the
position of the element along, since an environment may answer differently at each turn. `eachOn`
is the loop that goes on and keeps the first error.
-/

namespace Attempt

variable {State Error α : Type*}

/-- The state an operation reached, and the error it stopped with. -/
@[ext] structure Outcome (State Error : Type*) where
  state : State
  error : Option Error
  deriving DecidableEq

end Attempt

/-- An operation on `State` that may stop with an `Error`. -/
abbrev Attempt (State Error : Type*) := State → Attempt.Outcome State Error

namespace Attempt

variable {State Error α : Type*}

def succeed (f : State → State) : Attempt State Error := fun s => ⟨f s, none⟩

def fail (e : Error) : Attempt State Error := fun s => ⟨s, some e⟩

/-- Run `b` from where `a` ended, unless `a` stopped. -/
def andThen (a b : Attempt State Error) : Attempt State Error := fun s =>
  match (a s).error with
  | some e => ⟨(a s).state, some e⟩
  | none => b (a s).state

/-- Run `f i x`, `f (i + 1) y`, ... over a list and stop at the first error. -/
def eachFrom (f : Nat → α → Attempt State Error) : Nat → List α → Attempt State Error
  | _, [] => succeed id
  | i, x :: xs => andThen (f i x) (eachFrom f (i + 1) xs)

@[simp] theorem succeed_state (f : State → State) (s : State) :
    (succeed f s : Outcome State Error).state = f s := rfl

@[simp] theorem succeed_error (f : State → State) (s : State) :
    (succeed f s : Outcome State Error).error = none := rfl

@[simp] theorem fail_state (e : Error) (s : State) : (fail e s).state = s := rfl

@[simp] theorem fail_error (e : Error) (s : State) : (fail e s).error = some e := rfl

theorem andThen_of_error {a b : Attempt State Error} {s : State} {e : Error}
    (h : (a s).error = some e) : andThen a b s = ⟨(a s).state, some e⟩ := by
  simp [andThen, h]

theorem andThen_of_ok {a b : Attempt State Error} {s : State} (h : (a s).error = none) :
    andThen a b s = b (a s).state := by
  simp [andThen, h]

theorem andThen_error_eq_none {a b : Attempt State Error} {s : State} :
    (andThen a b s).error = none ↔ (a s).error = none ∧ (b (a s).state).error = none := by
  cases h : (a s).error with
  | none => simp [andThen_of_ok h]
  | some e => simp [andThen_of_error h]

/-- What both parts keep is kept by the sequence, whether or not it stops early. -/
theorem andThen_preserves {P : State → Prop} {a b : Attempt State Error}
    (ha : ∀ s, P s → P (a s).state) (hb : ∀ s, P s → P (b s).state) {s : State} (hs : P s) :
    P (andThen a b s).state := by
  cases h : (a s).error with
  | none => rw [andThen_of_ok h]; exact hb _ (ha s hs)
  | some e => rw [andThen_of_error h]; exact ha s hs

variable {f : Nat → α → Attempt State Error}

@[simp] theorem eachFrom_nil (i : Nat) (s : State) : eachFrom f i [] s = ⟨s, none⟩ := rfl

theorem eachFrom_cons (i : Nat) (x : α) (xs : List α) :
    eachFrom f i (x :: xs) = andThen (f i x) (eachFrom f (i + 1) xs) := rfl

/-- The invariant rule of the loop: what every turn keeps is kept by the loop. -/
theorem eachFrom_preserves {P : State → Prop} {xs : List α}
    (hf : ∀ i, ∀ x ∈ xs, ∀ s, P s → P (f i x s).state) (i : Nat) {s : State} (hs : P s) :
    P (eachFrom f i xs s).state := by
  induction xs generalizing i s with
  | nil => exact hs
  | cons x xs ih =>
    rw [eachFrom_cons]
    exact andThen_preserves (hf i x (by simp))
      (fun t ht => ih (fun j y hy => hf j y (by simp [hy])) (i + 1) ht) hs

/-- The invariant rule for a loop that goes through: the invariant may speak about the part
of the list already done. -/
theorem eachFrom_invariant {P : List α → State → Prop} {xs : List α}
    (hf : ∀ i, ∀ x ∈ xs, ∀ done s, P done s → (f i x s).error = none →
      P (done ++ [x]) (f i x s).state)
    (i : Nat) (done : List α) {s : State} (hs : P done s)
    (hok : (eachFrom f i xs s).error = none) : P (done ++ xs) (eachFrom f i xs s).state := by
  induction xs generalizing i s done with
  | nil => simpa using hs
  | cons x xs ih =>
    rw [eachFrom_cons, andThen_error_eq_none] at hok
    rw [eachFrom_cons, andThen_of_ok hok.1]
    simpa using ih (fun j y hy => hf j y (by simp [hy])) (i + 1) (done ++ [x])
      (hf i x (by simp) done s hs hok.1) hok.2

/-- Loops that agree at every position of the list agree. -/
theorem eachFrom_congr {g : Nat → α → Attempt State Error} {i : Nat} {xs : List α}
    (hfg : ∀ j x, xs[j]? = some x → f (i + j) x = g (i + j) x) :
    eachFrom f i xs = eachFrom g i xs := by
  induction xs generalizing i with
  | nil => rfl
  | cons x xs ih =>
    have hx : f i x = g i x := hfg 0 x rfl
    rw [eachFrom_cons, eachFrom_cons, hx, ih]
    intro j y hy
    rw [Nat.add_right_comm]
    exact hfg (j + 1) y hy

/-- A loop whose every turn succeeds and changes nothing succeeds and changes nothing. -/
theorem eachFrom_eq_self {xs : List α} {s : State} (hf : ∀ i, ∀ x ∈ xs, f i x s = ⟨s, none⟩)
    (i : Nat) : eachFrom f i xs s = ⟨s, none⟩ := by
  induction xs generalizing i with
  | nil => rfl
  | cons x xs ih =>
    have hx : f i x s = ⟨s, none⟩ := hf i x (by simp)
    rw [eachFrom_cons, andThen_of_ok (by rw [hx]), hx]
    exact ih (fun j y hy => hf j y (by simp [hy])) (i + 1)

/-! ## Loops that go on behind an error -/

/-- Run `f i x`, `f (i + 1) y`, ... over a list whatever they come to, and keep the first error. -/
def eachOn (f : Nat → α → Attempt State Error) : Nat → List α → Attempt State Error
  | _, [] => succeed id
  | i, x :: xs => fun s =>
    let first := f i x s
    let rest := eachOn f (i + 1) xs first.state
    ⟨rest.state, first.error.or rest.error⟩

@[simp] theorem eachOn_nil (i : Nat) (s : State) : eachOn f i [] s = ⟨s, none⟩ := rfl

theorem eachOn_cons (i : Nat) (x : α) (xs : List α) (s : State) :
    eachOn f i (x :: xs) s = ⟨(eachOn f (i + 1) xs (f i x s).state).state,
      (f i x s).error.or (eachOn f (i + 1) xs (f i x s).state).error⟩ := rfl

/-- Where no turn fails, it ends in the state that the turns lead to one after the other. -/
theorem eachOn_of_ok {next : α → State → State} (hf : ∀ i x s, f i x s = ⟨next x s, none⟩) (i : Nat)
    (xs : List α) (s : State) : eachOn f i xs s = ⟨xs.foldl (fun s x => next x s) s, none⟩ := by
  induction xs generalizing i s with
  | nil => rfl
  | cons x xs ih => simp [eachOn_cons, hf, ih]

/-! ## Loops that go through -/

section Through

variable {g : Nat → α → Attempt State Error}

/-- Two loops whose successful turns agree agree where the first one goes through. -/
theorem eachFrom_eq_of_ok (hfg : ∀ i x s, (f i x s).error = none → f i x s = g i x s) {i : Nat}
    {xs : List α} {s : State} (hok : (eachFrom f i xs s).error = none) :
    eachFrom f i xs s = eachFrom g i xs s := by
  induction xs generalizing i s with
  | nil => rfl
  | cons x xs ih =>
    rw [eachFrom_cons, andThen_error_eq_none] at hok
    have hx := hfg i x s hok.1
    rw [eachFrom_cons, eachFrom_cons, andThen_of_ok hok.1, andThen_of_ok (hx ▸ hok.1), ih hok.2, hx]

theorem eachOn_eq_of_ok (hfg : ∀ i x s, (f i x s).error = none → f i x s = g i x s) {i : Nat}
    {xs : List α} {s : State} (hok : (eachOn f i xs s).error = none) :
    eachOn f i xs s = eachOn g i xs s := by
  induction xs generalizing i s with
  | nil => rfl
  | cons x xs ih =>
    rw [eachOn_cons, Option.or_eq_none_iff] at hok
    rw [eachOn_cons, eachOn_cons, ih hok.2, hfg i x s hok.1]

end Through

end Attempt
