import WifiOffload.Library.StateMachine

/-!
# Potentials along a run

What the steps of a run cost in total, and the two rules that bound it: a potential that every step
changes by the difference of two costs changes over the run by the difference of their totals.
-/

namespace StateMachine

variable {State Event : Type*}

/-- The sum of what the steps of a run cost. -/
def total (step : State → Event → State) (cost : State → Event → Nat) :
    State → List Event → Nat
  | _, [] => 0
  | s, e :: es => cost s e + total step cost (step s e) es

variable {step : State → Event → State} {cost gain : State → Event → Nat} {φ : State → Nat}
  {C : State → Event → Prop}

@[simp] theorem total_nil (s : State) : total step cost s [] = 0 := rfl

@[simp] theorem total_cons (s : State) (e : Event) (es : List Event) :
    total step cost s (e :: es) = cost s e + total step cost (step s e) es := rfl

/-- Where no step leaves more than it takes, neither does a run. -/
theorem potential_le (hstep : ∀ s e, C s e → φ (step s e) + gain s e ≤ φ s + cost s e)
    {s : State} {es : List Event} (h : StepsMeet step C s es) :
    φ (run step s es) + total step gain s es ≤ φ s + total step cost s es := by
  induction es generalizing s with
  | nil => simp
  | cons e es ih =>
    have hhead := hstep s e h.1
    have htail := ih h.2
    simp only [run_cons, total_cons]
    omega

/-- Where every step leaves what it takes, so does a run. -/
theorem potential_eq (hstep : ∀ s e, C s e → φ (step s e) + gain s e = φ s + cost s e)
    {s : State} {es : List Event} (h : StepsMeet step C s es) :
    φ (run step s es) + total step gain s es = φ s + total step cost s es := by
  induction es generalizing s with
  | nil => simp
  | cons e es ih =>
    have hhead := hstep s e h.1
    have htail := ih h.2
    simp only [run_cons, total_cons]
    omega

theorem total_mul (n : Nat) (s : State) (es : List Event) :
    total step (fun s e => n * cost s e) s es = n * total step cost s es := by
  induction es generalizing s with
  | nil => rfl
  | cons e es ih => simp only [total_cons, ih, Nat.mul_add]

theorem total_zero (s : State) (es : List Event) : total step (fun _ _ => 0) s es = 0 := by
  induction es generalizing s with
  | nil => rfl
  | cons e es ih => simp [ih]

/-- A potential that every step lowers by its gain bounds the gains of a run. -/
theorem gain_le (hstep : ∀ s e, C s e → φ (step s e) + gain s e ≤ φ s) {s : State}
    {es : List Event} (h : StepsMeet step C s es) :
    φ (run step s es) + total step gain s es ≤ φ s := by
  have hle : φ (run step s es) + total step gain s es ≤
      φ s + total step (fun _ _ => 0) s es :=
    potential_le hstep h
  rwa [total_zero] at hle

end StateMachine
