import WifiOffload.Library.StateMachine

/-!
# Unwinding

Two runs of a machine that differ in hidden events only, and a relation between their states
that hidden steps keep silently and that all other steps keep with the same observations. What
is observed along the two runs is then the same.
-/

namespace StateMachine

variable {State Event Obs : Type*}

/-- What is observed along a run. -/
def observed (step : State → Event → State) (view : State → Event → List Obs) :
    State → List Event → List Obs
  | _, [] => []
  | s, e :: es => view s e ++ observed step view (step s e) es

variable {step : State → Event → State} {view : State → Event → List Obs}

@[simp] theorem observed_nil (s : State) : observed step view s [] = [] := rfl

@[simp] theorem observed_cons (s : State) (e : Event) (es : List Event) :
    observed step view s (e :: es) = view s e ++ observed step view (step s e) es := rfl

@[simp] theorem observed_append (s : State) (es fs : List Event) :
    observed step view s (es ++ fs) =
      observed step view s es ++ observed step view (run step s es) fs := by
  induction es generalizing s with
  | nil => rfl
  | cons e es ih => simp [ih]

/-- Where a step is observed at most once, each observation was made by a step of the run, in the
state that the steps before it lead to. -/
theorem observed_eq_append_cons (hview : ∀ s e, (view s e).length ≤ 1) {s : State}
    {es : List Event} {before after : List Obs} {o : Obs}
    (h : observed step view s es = before ++ o :: after) :
    ∃ pre e post, es = pre ++ e :: post ∧ observed step view s pre = before ∧
      view (run step s pre) e = [o] := by
  induction es generalizing s before with
  | nil => simp at h
  | cons e es ih =>
    rw [observed_cons] at h
    match hv : view s e, hview s e with
    | [], _ =>
      rw [hv, List.nil_append] at h
      obtain ⟨pre, f, post, rfl, hpre, hf⟩ := ih h
      exact ⟨e :: pre, f, post, rfl, by simp [hv, hpre], hf⟩
    | [o'], _ =>
      rw [hv, List.singleton_append] at h
      cases before with
      | nil =>
        obtain ⟨rfl, -⟩ := List.cons_eq_cons.mp h
        exact ⟨[], e, es, rfl, rfl, hv⟩
      | cons b before =>
        obtain ⟨rfl, htail⟩ := List.cons_eq_cons.mp h
        obtain ⟨pre, f, post, rfl, hpre, hf⟩ := ih htail
        exact ⟨e :: pre, f, post, rfl, by simp [hv, hpre], hf⟩

/-- A relation that carries two runs which differ in hidden events. Steps are taken where they
meet `C`. -/
structure Unwinding (step : State → Event → State) (view : State → Event → List Obs)
    (hidden : Event → Bool) (C : State → Event → Prop) (R : State → State → Prop) : Prop where
  symm : ∀ s t, R s t → R t s
  silent : ∀ s t e, R s t → hidden e = true → C s e → R (step s e) t ∧ view s e = []
  kept : ∀ s t e, R s t → hidden e = false → C s e → C t e →
    R (step s e) (step t e) ∧ view s e = view t e

namespace Unwinding

variable {hidden : Event → Bool} {C : State → Event → Prop} {R : State → State → Prop}

theorem run_hidden (h : Unwinding step view hidden C R) {s t : State} {es : List Event}
    (hR : R s t) (hes : ∀ e ∈ es, hidden e = true) (hC : StepsMeet step C s es) :
    R (run step s es) t ∧ observed step view s es = [] := by
  induction es generalizing s with
  | nil => exact ⟨hR, rfl⟩
  | cons e es ih =>
    obtain ⟨hstep, hview⟩ := h.silent s t e hR (hes e (by simp)) hC.1
    obtain ⟨hrun, hobs⟩ := ih hstep (fun f hf => hes f (by simp [hf])) hC.2
    exact ⟨hrun, by simp [hview, hobs]⟩

/-- Runs with the same events besides the hidden ones are observed alike. -/
theorem observed_eq (h : Unwinding step view hidden C R) {s t : State} {es fs : List Event}
    (hR : R s t) (hs : StepsMeet step C s es) (ht : StepsMeet step C t fs)
    (hsame : es.filter (fun e => !hidden e) = fs.filter (fun e => !hidden e)) :
    observed step view s es = observed step view t fs := by
  induction es generalizing s t fs with
  | nil =>
    have hfs : ∀ e ∈ fs, hidden e = true := by
      intro e he
      have hnot := List.filter_eq_nil_iff.mp hsame.symm e he
      simpa using hnot
    exact (h.run_hidden (h.symm s t hR) hfs ht).2.symm
  | cons e es ih =>
    cases he : hidden e with
    | true =>
      obtain ⟨hstep, hview⟩ := h.silent s t e hR he hs.1
      rw [observed_cons, hview]
      exact ih hstep hs.2 ht (by simpa [he] using hsame)
    | false =>
      -- the other run comes to the same event after hidden ones
      have hcons : fs.filter (fun e => !hidden e) = e :: es.filter (fun e => !hidden e) := by
        rw [← hsame, List.filter_cons_of_pos (by simp [he])]
      obtain ⟨us, vs, rfl, hus, -, hvs⟩ := List.filter_eq_cons_iff.mp hcons
      obtain ⟨hmeet, hCe, hmeet'⟩ := stepsMeet_append.mp ht
      obtain ⟨hR', hobs⟩ := h.run_hidden (h.symm s t hR) (fun f hf => by simpa using hus f hf) hmeet
      obtain ⟨hstep, hview⟩ := h.kept s _ e (h.symm _ _ hR') he hs.1 hCe
      rw [observed_cons, observed_append, observed_cons, hobs, hview, List.nil_append,
        ih hstep hs.2 hmeet' hvs.symm]

end Unwinding
end StateMachine
