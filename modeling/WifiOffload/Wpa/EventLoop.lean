import WifiOffload.Wpa.Thread

/-!
# Progress of the event loop

A turn of the event loop makes progress if it waits out the timeout of `poll`, is interrupted by
a signal or consumes a datagram. The others are to end the loop, so that no two of them follow
each other. Both errors do end it, but a `poll` that reports `POLLERR`, `POLLHUP` or `POLLNVAL`
without `POLLIN` goes back to the head of the loop. A dead socket reports the same at every call.
-/

namespace WifiOffload

open StateMachine

/-- The turn waits out the timeout, is interrupted, or consumes a datagram. -/
def PollOutcome.progress : PollOutcome → Bool
  | .timeout | .interrupted | .message _ => true
  | .failed | .recvFailed | .noInput => false

/-- A turn without progress. -/
def ThreadEffect.idleTurn : ThreadEffect → Bool
  | .turn outcome => !outcome.progress
  | .ctrlOpen | .attached | .ctrlClose | .sleeps _ => false

/-- `poll` finds an error or a hang-up and nothing to read exactly when the branch without a
`wpa_ctrl_recv` is taken. -/
theorem PollReturn.outcome_eq_noInput_iff {polled : PollReturn} {received : Option Bytes} :
    polled.outcome received = .noInput ↔ polled.Dead := by
  cases polled with
  | error interrupted => cases interrupted <;> simp [outcome, Dead]
  | timeout => simp [outcome, Dead]
  | ready revents =>
    cases received <;> cases hpollin : revents.pollin <;> simp [outcome, Dead, hpollin]

namespace MonitorThread

/-- No two turns without progress follow each other, and the loop ends on a socket that `poll`
reports dead. -/
def EndsOnDeadSocket (t : MonitorThread) (es : List ThreadEvent) : Prop :=
  (∀ before first second after, t.log es = before ++ first :: second :: after →
    ¬ (first.idleTurn = true ∧ second.idleTurn = true)) ∧
  ∀ pre env, pre ++ [.start env] <+: es → (run step t pre).pc = .poll → env.polled.Dead →
    (run step t (pre ++ [.start env])).pc = .detach

/-- The step is no `poll` that reports an error or a hang-up without input. -/
def FindsSocketAlive (t : MonitorThread) : ThreadEvent → Prop
  | .start env => t.pc = .poll → ¬ env.polled.Dead
  | .stop => True

variable {t : MonitorThread}

/-- A dead socket sends the event loop back to its head. -/
theorem advance_dead {env : Environment} (hpc : t.pc = .poll) (hdead : env.polled.Dead) :
    t.advance env = ({ t with pc := .eventLoopHead }, [.turn .noInput]) := by
  have houtcome : env.polled.outcome env.received = .noInput :=
    PollReturn.outcome_eq_noInput_iff.mpr hdead
  simp [advance, hpc, houtcome, pollTurn, WpaMonitor.pollTurn, toMonitor]

/-- It stays in the loop as long as the socket is dead, one turn without progress after another,
and never comes to the detach. -/
theorem spins_on_dead_socket (hpc : t.pc = .eventLoopHead) (hrunning : t.stopRequested = false)
    {env : Environment} (hdead : env.polled.Dead) (n : Nat) :
    run step t (List.replicate (2 * n) (.start env)) = t ∧
    t.log (List.replicate (2 * n) (.start env)) = List.replicate n (.turn .noInput) := by
  induction n with
  | zero => simp
  | succ n ih =>
    have hhead : t.advance env = ({ t with pc := .poll }, []) := by simp [advance, hpc, hrunning]
    have hpoll : ({ t with pc := .poll } : MonitorThread).advance env = (t, [.turn .noInput]) := by
      rw [advance_dead rfl hdead, ← hpc]
    rw [show 2 * (n + 1) = 2 * n + 1 + 1 by omega, List.replicate_succ, List.replicate_succ]
    simp [hhead, hpoll, ih, List.replicate_succ]

/-- Only `poll` is observed as a turn. -/
theorem poll_of_turn {e : ThreadEvent} {outcome : PollOutcome}
    (h : ThreadEffect.turn outcome ∈ t.effects e) : t.pc = .poll ∧
      ∃ env, e = .start env ∧ outcome = env.polled.outcome env.received := by
  cases e with
  | stop => simp at h
  | start env =>
    simp only [effects_start, advance] at h
    split at h <;> (try split at h) <;> simp_all

/-- A turn without progress ends the loop unless the socket is dead. -/
theorem detach_of_idleTurn {e : ThreadEvent} {x : ThreadEffect} (hx : x ∈ t.effects e)
    (hidle : x.idleTurn = true) :
    t.pc = .poll ∧ (t.FindsSocketAlive e → (t.step e).pc = .detach) := by
  cases x with
  | ctrlOpen | attached | ctrlClose | sleeps => cases hidle
  | turn outcome =>
    obtain ⟨hpc, env, rfl, houtcome⟩ := poll_of_turn hx
    refine ⟨hpc, fun halive => ?_⟩
    have hinput : outcome ≠ .noInput := by
      rw [houtcome]
      exact fun h => halive hpc (PollReturn.outcome_eq_noInput_iff.mp h)
    simp only [step_start, advance, hpc, ← houtcome]
    cases outcome with
    | failed | recvFailed => rfl
    | noInput => exact absurd rfl hinput
    | timeout | interrupted | message => cases hidle

/-- The detach is observed as a close. -/
theorem effects_detach (hpc : t.pc = .detach) (env : Environment) :
    t.effects (.start env) = [.ctrlClose] := by
  simp [advance, hpc]

/-- In a run that finds the socket alive in every `poll`, a turn without progress is followed by
the close. -/
theorem isChain_log {es : List ThreadEvent} (halive : StepsMeet step FindsSocketAlive t es) :
    (t.log es).IsChain (fun x y => ¬ (x.idleTurn = true ∧ y.idleTurn = true)) ∧
    ∀ x ∈ (t.log es).getLast?, x.idleTurn = true → (run step t es).pc = .detach := by
  induction es using List.reverseRecOn with
  | nil => simp
  | append_singleton es e ih =>
    obtain ⟨hes, he, -⟩ := stepsMeet_append.mp halive
    obtain ⟨hchain, hlast⟩ := ih hes
    rw [log_append, run_append]
    simp only [log_cons, log_nil, List.append_nil, run_cons, run_nil]
    refine ⟨List.isChain_append.mpr ⟨hchain, ?_, ?_⟩, ?_⟩
    · match (run step t es).effects e, effects_length (run step t es) e with
      | [], _ => exact .nil
      | [x], _ => exact .singleton x
    · rintro x hx y hy ⟨hxidle, hyidle⟩
      have hpc := (detach_of_idleTurn (List.mem_of_mem_head? hy) hyidle).1
      rw [hlast x hx hxidle] at hpc
      cases hpc
    · intro x hx hidle
      rw [List.getLast?_append] at hx
      cases e with
      | stop => simpa using hlast x (by simpa using hx) hidle
      | start env =>
        cases hview : (run step t es).effects (.start env) with
        | nil =>
          -- the detach would have been observed
          have hpc := hlast x (by simpa [hview] using hx) hidle
          simp [effects_detach hpc] at hview
        | cons y ys =>
          have hmem : x ∈ (run step t es).effects (.start env) := by
            refine List.mem_of_getLast? ?_
            simpa [hview, List.getLast?_cons] using hx
          exact (detach_of_idleTurn hmem hidle).2 he

/-- The event loop ends on a dead socket in exactly the runs in which no `poll` finds one. -/
theorem endsOnDeadSocket_iff (cls : PathClassConfig) (iface : Bytes) (es : List ThreadEvent) :
    EndsOnDeadSocket (constructed cls iface) es ↔
      StepsMeet step FindsSocketAlive (constructed cls iface) es := by
  constructor
  · rintro ⟨-, hends⟩
    refine stepsMeet_iff_prefixes.mpr fun pre e hpre => ?_
    cases e with
    | stop => trivial
    | start env =>
      intro hpc hdead
      have hdetach := hends pre env hpre hpc hdead
      simp [advance_dead hpc hdead] at hdetach
  · intro halive
    refine ⟨fun before first second after hsplit => ?_, fun pre env hpre hpc hdead => ?_⟩
    · exact List.isChain_iff_forall_rel_of_append_cons_cons.mp (isChain_log halive).1 hsplit
    · exact absurd hdead (stepsMeet_iff_prefixes.mp halive pre _ hpre hpc)

/-- `wpa_supplicant` is gone and `poll` reports `POLLHUP` at once: the loop turns without progress
and stays attached. -/
theorem loop_spins_on_hangup :
    let cls := pathPolicies.head (by decide)
    let env : Environment :=
      { opened := true, attached := true, polled := .ready ⟨false, false, true, false, rfl⟩ }
    let t := constructed cls (Bytes.ascii "eth0.100")
    let es := List.replicate 8 (ThreadEvent.start env)
    t.log es = [.ctrlOpen, .attached, .turn .noInput, .turn .noInput] ∧
      (run step t es).pc = .eventLoopHead ∧ ¬ EndsOnDeadSocket t es := by
  refine ⟨by decide, by decide, fun h => ?_⟩
  exact h.1 [.ctrlOpen, .attached] (.turn .noInput) (.turn .noInput) [] (by decide) (by decide)

end MonitorThread
end WifiOffload
