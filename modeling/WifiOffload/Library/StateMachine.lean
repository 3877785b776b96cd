import Mathlib

/-!
# Runs of a deterministic machine

A machine is a step function `State → Event → State`; a run is the list of events it is fed.
`Throughout` says that a predicate holds in every state of a run, `StepsMeet` that every event
meets a condition in the state it is taken from. The two are connected by `throughout_of_step`
(a condition on the steps keeps an invariant) and `throughout_iff_stepsMeet` (the condition is
exact: the property holds along a run if and only if all its steps meet the condition), with
`throughout_iff_stepsMeet_of_invariant` for a property that is not inductive by itself.
-/

namespace StateMachine

variable {State Event : Type*}

/-- The state that a list of events leads to. -/
def run (step : State → Event → State) (s : State) (es : List Event) : State := es.foldl step s

/-- `P` holds in `s` and in every state that the events lead to from `s`. -/
def Throughout (step : State → Event → State) (P : State → Prop) : State → List Event → Prop
  | s, [] => P s
  | s, e :: es => P s ∧ Throughout step P (step s e) es

/-- Every event meets `C` in the state it is taken from. -/
def StepsMeet (step : State → Event → State) (C : State → Event → Prop) :
    State → List Event → Prop
  | _, [] => True
  | s, e :: es => C s e ∧ StepsMeet step C (step s e) es

instance Throughout.decidable (step : State → Event → State) (P : State → Prop)
    [DecidablePred P] : ∀ s es, Decidable (Throughout step P s es)
  | s, [] => inferInstanceAs (Decidable (P s))
  | s, e :: es => @instDecidableAnd _ _ _ (decidable step P (step s e) es)

instance StepsMeet.decidable (step : State → Event → State) (C : State → Event → Prop)
    [∀ s e, Decidable (C s e)] : ∀ s es, Decidable (StepsMeet step C s es)
  | _, [] => inferInstanceAs (Decidable True)
  | s, e :: es => @instDecidableAnd _ _ _ (decidable step C (step s e) es)

variable {step : State → Event → State} {P Q I : State → Prop} {C : State → Event → Prop}

@[simp] theorem run_nil (s : State) : run step s [] = s := rfl

@[simp] theorem run_cons (s : State) (e : Event) (es : List Event) :
    run step s (e :: es) = run step (step s e) es := rfl

@[simp] theorem run_append (s : State) (es fs : List Event) :
    run step s (es ++ fs) = run step (run step s es) fs := List.foldl_append

theorem Throughout.head {s : State} {es : List Event} (h : Throughout step P s es) : P s := by
  cases es with
  | nil => exact h
  | cons e es => exact h.1

/-- The states of a run are the ones its prefixes lead to. -/
theorem throughout_iff_prefixes {s : State} {es : List Event} :
    Throughout step P s es ↔ ∀ pre, pre <+: es → P (run step s pre) := by
  induction es generalizing s with
  | nil => simp [Throughout]
  | cons e es ih =>
    simp only [Throughout, ih]
    constructor
    · rintro ⟨hs, hrest⟩ pre hpre
      rcases List.prefix_cons_iff.mp hpre with rfl | ⟨pre', rfl, hpre'⟩
      · exact hs
      · exact hrest pre' hpre'
    · intro h
      exact ⟨h [] List.nil_prefix,
        fun pre hpre => h (e :: pre) (List.cons_prefix_cons.mpr ⟨rfl, hpre⟩)⟩

theorem Throughout.last {s : State} {es : List Event} (h : Throughout step P s es) :
    P (run step s es) := throughout_iff_prefixes.mp h es List.prefix_rfl

theorem Throughout.mono {s : State} {es : List Event} (h : Throughout step P s es)
    (hPQ : ∀ t, P t → Q t) : Throughout step Q s es :=
  throughout_iff_prefixes.mpr fun pre hpre => hPQ _ (throughout_iff_prefixes.mp h pre hpre)

theorem Throughout.and {s : State} {es : List Event} (hP : Throughout step P s es)
    (hQ : Throughout step Q s es) : Throughout step (fun t => P t ∧ Q t) s es :=
  throughout_iff_prefixes.mpr fun pre hpre =>
    ⟨throughout_iff_prefixes.mp hP pre hpre, throughout_iff_prefixes.mp hQ pre hpre⟩

theorem StepsMeet.mono {D : State → Event → Prop} {s : State} {es : List Event}
    (h : StepsMeet step C s es) (hCD : ∀ t e, C t e → D t e) : StepsMeet step D s es := by
  induction es generalizing s with
  | nil => trivial
  | cons e es ih => exact ⟨hCD _ _ h.1, ih h.2⟩

theorem StepsMeet.and {D : State → Event → Prop} {s : State} {es : List Event}
    (hC : StepsMeet step C s es) (hD : StepsMeet step D s es) :
    StepsMeet step (fun t e => C t e ∧ D t e) s es := by
  induction es generalizing s with
  | nil => trivial
  | cons e es ih => exact ⟨⟨hC.1, hD.1⟩, ih hC.2 hD.2⟩

/-- The steps of a run on which a predicate holds throughout go between states with it. -/
theorem Throughout.stepsMeet {s : State} {es : List Event} (h : Throughout step P s es) :
    StepsMeet step (fun s e => P s ∧ P (step s e)) s es := by
  induction es generalizing s with
  | nil => trivial
  | cons e es ih => exact ⟨⟨h.1, h.2.head⟩, ih h.2⟩

/-- Two conditions that agree wherever an invariant holds are met by the same runs. -/
theorem stepsMeet_iff_of_invariant {D : State → Event → Prop} (hI : ∀ s e, I s → I (step s e))
    (hCD : ∀ s e, I s → (C s e ↔ D s e)) {s : State} (hs : I s) (es : List Event) :
    StepsMeet step C s es ↔ StepsMeet step D s es := by
  induction es generalizing s with
  | nil => exact Iff.rfl
  | cons e es ih => exact and_congr (hCD s e hs) (ih (hI s e hs))

theorem stepsMeet_append {s : State} {es fs : List Event} :
    StepsMeet step C s (es ++ fs) ↔
      StepsMeet step C s es ∧ StepsMeet step C (run step s es) fs := by
  induction es generalizing s with
  | nil => simp [StepsMeet]
  | cons e es ih => simp only [List.cons_append, StepsMeet, ih, run_cons, and_assoc]

/-- The steps of a run are the ones that its prefixes end with. -/
theorem stepsMeet_iff_prefixes {s : State} {es : List Event} :
    StepsMeet step C s es ↔ ∀ pre e, pre ++ [e] <+: es → C (run step s pre) e := by
  induction es generalizing s with
  | nil => simp [StepsMeet]
  | cons f es ih =>
    simp only [StepsMeet, ih]
    constructor
    · rintro ⟨hf, hrest⟩ pre e hpre
      cases pre with
      | nil =>
        obtain ⟨rfl, -⟩ := List.cons_prefix_cons.mp hpre
        exact hf
      | cons g pre =>
        obtain ⟨rfl, htail⟩ := List.cons_prefix_cons.mp hpre
        exact hrest pre e htail
    · intro h
      exact ⟨h [] f (List.cons_prefix_cons.mpr ⟨rfl, List.nil_prefix⟩),
        fun pre e hpre => h (f :: pre) e (List.cons_prefix_cons.mpr ⟨rfl, hpre⟩)⟩

theorem stepsMeet_of_forall {D : Event → Prop} {es : List Event} (h : ∀ e ∈ es, D e)
    (s : State) : StepsMeet step (fun _ e => D e) s es := by
  induction es generalizing s with
  | nil => trivial
  | cons e es ih => exact ⟨h e (by simp), ih (fun f hf => h f (by simp [hf])) _⟩

/-- The run rule: a predicate kept by every step that meets `C` holds along every run
whose steps all meet `C`. -/
theorem throughout_of_step (hstep : ∀ s e, P s → C s e → P (step s e)) {s : State}
    {es : List Event} (hs : P s) (h : StepsMeet step C s es) : Throughout step P s es := by
  induction es generalizing s with
  | nil => exact hs
  | cons e es ih => exact ⟨hs, ih (hstep s e hs h.1) h.2⟩

/-- The run rule for a predicate that every step keeps. -/
theorem throughout_of_invariant (hstep : ∀ s e, P s → P (step s e)) {s : State}
    (hs : P s) (es : List Event) : Throughout step P s es := by
  induction es generalizing s with
  | nil => exact hs
  | cons e es ih => exact ⟨hs, ih (hstep s e hs)⟩

/-- A predicate that no step brings about holds along every run that ends in it. -/
theorem throughout_of_last (hback : ∀ s e, P (step s e) → P s) {s : State} {es : List Event}
    (h : P (run step s es)) : Throughout step P s es := by
  induction es generalizing s with
  | nil => exact h
  | cons e es ih =>
    have htail := ih h
    exact ⟨hback s e htail.head, htail⟩

/-- The exactness rule: where a step that reaches a state with `P` must have met `C`, and the
steps that meet `C` keep an invariant `J` with `P`, the property holds along a run exactly when
all the steps of the run meet `C`. `I` is what every step keeps. -/
theorem throughout_iff_stepsMeet_of_invariant {J : State → Prop}
    (hI : ∀ s e, I s → I (step s e)) (hJP : ∀ s, J s → P s)
    (hnec : ∀ s e, I s → J s → P (step s e) → C s e)
    (hsuf : ∀ s e, I s → J s → C s e → J (step s e)) {s : State} (hIs : I s) (hJs : J s)
    (es : List Event) : Throughout step P s es ↔ StepsMeet step C s es := by
  induction es generalizing s with
  | nil => exact ⟨fun _ => trivial, fun _ => hJP s hJs⟩
  | cons e es ih =>
    constructor
    · rintro ⟨-, h⟩
      have hC := hnec s e hIs hJs h.head
      exact ⟨hC, (ih (hI s e hIs) (hsuf s e hIs hJs hC)).mp h⟩
    · rintro ⟨hC, h⟩
      exact ⟨hJP s hJs, (ih (hI s e hIs) (hsuf s e hIs hJs hC)).mpr h⟩

/-- The exactness rule where the property itself is the invariant. -/
theorem throughout_iff_stepsMeet (hI : ∀ s e, I s → I (step s e))
    (hstep : ∀ s e, I s → P s → (P (step s e) ↔ C s e)) {s : State} (hIs : I s) (hs : P s)
    (es : List Event) : Throughout step P s es ↔ StepsMeet step C s es :=
  throughout_iff_stepsMeet_of_invariant hI (fun _ h => h)
    (fun s e hIs hP h => (hstep s e hIs hP).mp h) (fun s e hIs hP hC => (hstep s e hIs hP).mpr hC)
    hIs hs es

end StateMachine
