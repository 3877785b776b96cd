import WifiOffload.Wpa.Thread

/-!
# Stop requests

A call of `stop` from another thread, in every interleaving with the thread that runs `start`.
Once `start` is past its first statement it only reads the flag, and a set flag brings it to its
return within five of its steps. The first statement itself clears the flag: a `stop` that stores
before it is forgotten, and `start` goes on for ever. `StartsFirst` is the condition on the order
of the two that excludes it.
-/

namespace WifiOffload

open StateMachine

namespace MonitorThread

/-- From the return of `stop` on, the flag stays set and `start` opens at most once more; five
steps of `start` are enough for it to return. -/
def KeepsStop (t : MonitorThread) (es : List ThreadEvent) : Prop :=
  ∀ before later, before ++ later <+: es → (run step t before).stopCall = .returned →
    (run step t (before ++ later)).stopRequested = true ∧
    ((run step t before).log later).count .ctrlOpen ≤ 1 ∧
    (5 ≤ later.countP (·.isStart) → (run step t (before ++ later)).pc = .returned)

/-- If `stop` returns and `start` runs at all, `start` makes the first step. -/
def StartsFirst (es : List ThreadEvent) : Prop :=
  2 ≤ es.count .stop → ∀ env, .start env ∈ es → ∃ first rest, es = .start first :: rest

variable {t : MonitorThread}

/-! ## How far a call of stop is -/

def stepsMade : StopCall → Nat
  | .notCalled => 0
  | .stored => 1
  | .returned => 2

/-- The call is as far as the steps that it was given. -/
theorem stepsMade_run (t : MonitorThread) (es : List ThreadEvent) :
    stepsMade (run step t es).stopCall = min 2 (stepsMade t.stopCall + es.count .stop) := by
  induction es generalizing t with
  | nil => cases h : t.stopCall <;> simp [stepsMade, h]
  | cons e es ih =>
    rw [run_cons, ih]
    cases e with
    | start env => simp
    | stop =>
      cases h : t.stopCall <;> simp [stop, stepsMade, h] <;> omega

theorem returned_run_iff {es : List ThreadEvent} (h : t.stopCall = .notCalled) :
    (run step t es).stopCall = .returned ↔ 2 ≤ es.count .stop := by
  have hmade := stepsMade_run t es
  cases hcall : (run step t es).stopCall <;> simp [hcall, h, stepsMade] at hmade ⊢ <;> omega

/-! ## A request that start cannot clear any more -/

/-- The flag is set, and `start` is past the statement that clears it. -/
def Stopping (t : MonitorThread) : Prop := t.stopRequested = true ∧ t.pc ≠ .reset

/-- The calls of `wpa_ctrl_open` that are still to come once the flag is set. -/
def opensLeft : ThreadPoint → Nat
  | .openCtrl => 1
  | _ => 0

/-- The steps to the return once the flag is set. -/
def stepsLeft : ThreadPoint → Nat
  | .returned => 0
  | .loopHead | .lostCheck | .sleepCheck => 1
  | .sleep | .detach => 2
  | .eventLoopHead => 3
  | .poll | .attach => 4
  | .openCtrl | .reset => 5

theorem stopping_stop (h : t.Stopping) : t.stop.Stopping := by
  refine ⟨?_, by simpa using h.2⟩
  unfold stop
  split <;> simp [h.1]

/-- A step of `start` with the flag set uses up one of the steps to the return, and the one open
if it opens. -/
theorem stopping_advance (h : t.Stopping) (env : Environment) :
    (t.advance env).1.Stopping ∧
    (t.advance env).2.count .ctrlOpen + opensLeft (t.advance env).1.pc ≤ opensLeft t.pc ∧
    stepsLeft (t.advance env).1.pc ≤ stepsLeft t.pc - 1 := by
  obtain ⟨hflag, hpast⟩ := h
  refine ⟨⟨(advance_stopRequested t env hpast).trans hflag,
    step_pc_ne_reset t (.start env) hpast⟩, ?_⟩
  cases hpc : t.pc with
  | reset => exact absurd hpc hpast
  | openCtrl => cases hopened : env.opened <;> simp [advance, hpc, hopened, opensLeft, stepsLeft]
  | attach =>
    cases hattached : env.attached <;> simp [advance, hpc, hattached, opensLeft, stepsLeft]
  | poll =>
    simp only [advance, hpc]
    rcases pollTurn_pc t (env.polled.outcome env.received) with hnext | hnext <;>
      simp [hnext, opensLeft, stepsLeft]
  | loopHead | eventLoopHead | detach | lostCheck | sleepCheck | sleep | returned =>
    simp [advance, hpc, hflag, opensLeft, stepsLeft]

theorem stopping_run (h : t.Stopping) (es : List ThreadEvent) :
    (run step t es).Stopping ∧ (t.log es).count .ctrlOpen ≤ opensLeft t.pc ∧
    stepsLeft (run step t es).pc ≤ stepsLeft t.pc - es.countP (·.isStart) := by
  induction es generalizing t with
  | nil => simpa using h
  | cons e es ih =>
    cases e with
    | stop => simpa [ThreadEvent.isStart] using ih (stopping_stop h)
    | start env =>
      obtain ⟨hstopping, hopens, hsteps⟩ := stopping_advance h env
      obtain ⟨hrun, hlog, hleft⟩ := ih hstopping
      refine ⟨hrun, ?_, ?_⟩
      · simp only [log_cons, effects_start, step_start, List.count_append]
        omega
      · rw [run_cons, step_start, List.countP_cons_of_pos rfl]
        omega

theorem opensLeft_le (pc : ThreadPoint) : opensLeft pc ≤ 1 := by
  cases pc <;> decide

theorem stepsLeft_le (pc : ThreadPoint) : stepsLeft pc ≤ 5 := by
  cases pc <;> decide

theorem stepsLeft_eq_zero {pc : ThreadPoint} (h : stepsLeft pc = 0) : pc = .returned := by
  cases pc <;> first | rfl | cases h

/-- `start` returns, after at most one more open. -/
theorem stopping_returns (h : t.Stopping) (es : List ThreadEvent) :
    (run step t es).stopRequested = true ∧ (t.log es).count .ctrlOpen ≤ 1 ∧
    (5 ≤ es.countP (·.isStart) → (run step t es).pc = .returned) := by
  obtain ⟨hrun, hopens, hsteps⟩ := stopping_run h es
  refine ⟨hrun.1, hopens.trans (opensLeft_le _), fun hmany => stepsLeft_eq_zero ?_⟩
  have hbound := stepsLeft_le t.pc
  omega

/-! ## Past the first statement of start -/

/-- What holds of the call and the flag behind the first statement of `start`, and is kept by the
steps of `stop`, holds from then on. -/
theorem past_reset_run {Q : StopCall → Bool → Prop}
    (hstop : ∀ t : MonitorThread, Q t.stopCall t.stopRequested →
      Q t.stop.stopCall t.stop.stopRequested)
    (h : t.pc ≠ .reset ∧ Q t.stopCall t.stopRequested) (es : List ThreadEvent) :
    (run step t es).pc ≠ .reset ∧ Q (run step t es).stopCall (run step t es).stopRequested := by
  have hstep (t : MonitorThread) (e : ThreadEvent)
      (h : t.pc ≠ .reset ∧ Q t.stopCall t.stopRequested) :
      (t.step e).pc ≠ .reset ∧ Q (t.step e).stopCall (t.step e).stopRequested := by
    refine ⟨step_pc_ne_reset t e h.1, ?_⟩
    cases e with
    | stop => exact hstop t h.2
    | start env =>
      rw [step_start, advance_stopCall, advance_stopRequested t env h.1]
      exact h.2
  exact (throughout_of_invariant hstep h es).last

/-- `start` is past its first statement, and a request made since then stands. -/
def Heard (t : MonitorThread) : Prop :=
  t.pc ≠ .reset ∧ (t.stopCall ≠ .notCalled → t.stopRequested = true)

theorem heard_run (h : t.Heard) (es : List ThreadEvent) : (run step t es).Heard := by
  refine past_reset_run (Q := fun call flag => call ≠ .notCalled → flag = true) (fun t h => ?_) h es
  cases hcall : t.stopCall <;> simp_all [stop]

/-- A request is heard where `start` makes the first step. -/
theorem stopping_of_startFirst (hcall : t.stopCall = .notCalled) {first : Environment}
    {es : List ThreadEvent} (hreturned : (run step t (.start first :: es)).stopCall = .returned) :
    (run step t (.start first :: es)).Stopping := by
  have hfirst : (t.step (.start first)).Heard := by
    refine ⟨advance_pc_ne_reset t first, fun hcalled => ?_⟩
    rw [step_start, advance_stopCall] at hcalled
    exact absurd hcall hcalled
  have hheard : (run step t (.start first :: es)).Heard := heard_run hfirst es
  exact ⟨hheard.2 (by rw [hreturned]; decide), hheard.1⟩

/-- The first statement of `start` came after the store, and cleared the flag. -/
def Lost (t : MonitorThread) : Prop :=
  t.pc ≠ .reset ∧ t.stopCall ≠ .notCalled ∧ t.stopRequested = false

theorem lost_run (h : t.Lost) (es : List ThreadEvent) : (run step t es).Lost := by
  refine past_reset_run (Q := fun call flag => call ≠ .notCalled ∧ flag = false)
    (fun t h => ?_) h es
  cases hcall : t.stopCall <;> simp_all [stop]

/-! ## A stop before it -/

/-- A stored request is lost as soon as `start` makes its first step. -/
theorem lost_of_stored (hpc : t.pc = .reset) (hcall : t.stopCall ≠ .notCalled)
    {es : List ThreadEvent} {env : Environment} (henv : .start env ∈ es) :
    (run step t es).Lost := by
  induction es generalizing t with
  | nil => cases henv
  | cons e es ih =>
    cases e with
    | start first =>
      refine lost_run (t := t.step (.start first)) ?_ es
      simpa [Lost, step, advance, hpc] using hcall
    | stop =>
      refine ih (t := t.stop) (by simpa using hpc) ?_ (by simpa using henv)
      cases h : t.stopCall <;> simp_all [stop]

/-- While `start` makes no step, the flag is set once `stop` has stored it. -/
theorem stored_without_start (hflag : t.stopCall ≠ .notCalled → t.stopRequested = true)
    {es : List ThreadEvent} (hes : ∀ env, .start env ∉ es) :
    ((run step t es).stopCall ≠ .notCalled → (run step t es).stopRequested = true) ∧
      t.log es = [] := by
  induction es generalizing t with
  | nil => exact ⟨hflag, rfl⟩
  | cons e es ih =>
    cases e with
    | start env => exact absurd (List.mem_cons_self ..) (hes env)
    | stop =>
      refine ih (t := t.stop) ?_ fun env henv => hes env (List.mem_cons_of_mem _ henv)
      cases h : t.stopCall <;> simp_all [stop]

/-- A request stands while `start` makes no step. -/
theorem kept_without_start (hcall : t.stopCall = .notCalled) {before later : List ThreadEvent}
    (hnone : ∀ env, .start env ∉ before ++ later)
    (hreturned : (run step t before).stopCall = .returned) :
    (run step t (before ++ later)).stopRequested = true ∧
      ((run step t before).log later).count .ctrlOpen ≤ 1 ∧
      (5 ≤ later.countP (·.isStart) → (run step t (before ++ later)).pc = .returned) := by
  have hbefore : ∀ env, .start env ∉ before := fun env h => hnone env (by simp [h])
  have hlater : ∀ env, .start env ∉ later := fun env h => hnone env (by simp [h])
  have hstops : 2 ≤ before.count .stop := (returned_run_iff hcall).mp hreturned
  have hstill : (run step t (before ++ later)).stopCall = .returned :=
    (returned_run_iff hcall).mpr (by rw [List.count_append]; omega)
  obtain ⟨hstored, -⟩ := stored_without_start (fun h => absurd hcall h) hbefore
  obtain ⟨hflag, hlog⟩ := stored_without_start hstored hlater
  rw [← run_append] at hflag
  refine ⟨hflag (by rw [hstill]; decide), by simp [hlog], fun hmany => ?_⟩
  obtain ⟨e, he, hstarts⟩ := List.countP_pos_iff.mp (by omega : 0 < later.countP (·.isStart))
  cases e with
  | start env => exact absurd he (hlater env)
  | stop => cases hstarts

/-! ## The order of the two calls -/

/-- A stop request is kept in exactly the interleavings in which the store of `stop` does not come
before the first statement of `start`: those where `start` makes the first step, `start` does not
run, or `stop` does not return. -/
theorem keepsStop_iff (cls : PathClassConfig) (iface : Bytes) (es : List ThreadEvent) :
    KeepsStop (constructed cls iface) es ↔ StartsFirst es := by
  constructor
  · intro hkeeps hstops env henv
    cases es with
    | nil => cases henv
    | cons e es =>
      cases e with
      | start first => exact ⟨first, es, rfl⟩
      | stop =>
        have hreturned : (run step (constructed cls iface) (.stop :: es)).stopCall = .returned :=
          (returned_run_iff rfl).mpr hstops
        have hlost : (run step (constructed cls iface) (.stop :: es)).Lost :=
          lost_of_stored (t := (constructed cls iface).stop) rfl (by simp [stop, constructed])
            (by simpa using henv)
        have hflag := (hkeeps (.stop :: es) [] (by simp) hreturned).1
        rw [List.append_nil, hlost.2.2] at hflag
        cases hflag
  · intro hfirst before later hprefix hreturned
    have hstops : 2 ≤ before.count .stop := (returned_run_iff rfl).mp hreturned
    obtain ⟨after, rfl⟩ := hprefix
    by_cases hstart : ∃ env, .start env ∈ before ++ later ++ after
    · -- `start` was first, so the request came after its first statement
      obtain ⟨env, henv⟩ := hstart
      obtain ⟨first, rest, hes⟩ := hfirst (by simp; omega) env henv
      obtain ⟨before', rfl⟩ : ∃ before', before = .start first :: before' := by
        cases before with
        | nil => simp at hstops
        | cons e before' => exact ⟨before', by simp_all⟩
      rw [run_append]
      exact stopping_returns (stopping_of_startFirst rfl hreturned) later
    · -- nothing but the call of `stop`
      refine kept_without_start rfl (fun env henv => hstart ⟨env, ?_⟩) hreturned
      exact List.mem_append_left after henv

/-- `stop` is called before the thread comes to its first statement: the flag is cleared, and
`start` tries to connect again and again. -/
theorem stop_lost_before_start :
    let cls := pathPolicies.head (by decide)
    let es : List ThreadEvent := [.stop, .stop] ++ List.replicate 7 (.start {})
    let t := run step (constructed cls (Bytes.ascii "eth0.100")) es
    t.stopCall = .returned ∧ t.stopRequested = false ∧
      ((constructed cls (Bytes.ascii "eth0.100")).log es).count .ctrlOpen = 2 ∧
      ¬ KeepsStop (constructed cls (Bytes.ascii "eth0.100")) es := by
  refine ⟨by decide, by decide, by decide, fun h => ?_⟩
  have hflag := (h ([.stop, .stop] ++ List.replicate 7 (.start {})) [] (by simp) (by decide)).1
  exact absurd hflag (by decide)

end MonitorThread
end WifiOffload
