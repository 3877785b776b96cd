import WifiOffload.Wpa.Thread

/-!
# The thread refines the monitor

Each state of the thread stands for a state of the monitor of `Wpa/Monitor.lean`, whose steps go
from one check of the flag to the next. Where the thread is past a check the monitor has still to
make its step, with the flag not set; where a check is ahead the step is made, and it may have
said either that `stop` came in or, as long as the flag is not set, that it did not.
-/

namespace WifiOffload

open StateMachine

namespace MonitorThread

/-- The phase at a point of `start`; `stop` says what the check ahead will find. -/
def phaseAt (stop : Bool) : ThreadPoint → MonitorPhase
  | .reset | .loopHead | .openCtrl | .attach => .connecting
  | .eventLoopHead | .poll => .attached
  | .detach | .lostCheck | .sleepCheck => if stop then .stopped else .backingOff
  | .sleep => .backingOff
  | .returned => .stopped

/-- What the monitor's flag can be at a point of `start`. -/
def CanFind (t : MonitorThread) (stop : Bool) : Prop :=
  match t.pc with
  | .reset => True
  | .openCtrl | .attach | .poll | .sleep => stop = false
  | .loopHead | .eventLoopHead | .detach | .lostCheck | .sleepCheck =>
    t.stopRequested = true → stop = true
  | .returned => stop = true

/-- Some run of the monitor comes to `m`; `stop` may have been called before its first check. -/
def Reaches (cls : PathClassConfig) (iface : Bytes) (m : WpaMonitor) : Prop :=
  ∃ stop es, run WpaMonitor.step { WpaMonitor.start cls iface with stopRequested := stop } es = m

/-- The monitor comes to each state that the thread may stand for. -/
structure Refines (cls : PathClassConfig) (iface : Bytes) (t : MonitorThread) : Prop where
  initial : t.pc = .reset → t.backoff = WpaMonitor.kInitialBackoff
  reaches : ∀ stop, t.CanFind stop → Reaches cls iface (t.toMonitor (phaseAt stop t.pc) stop)

variable {cls : PathClassConfig} {iface : Bytes} {t : MonitorThread}

theorem reaches_step {m : WpaMonitor} (h : Reaches cls iface m) (e : WpaMonitor.Step) :
    Reaches cls iface (m.step e) := by
  obtain ⟨stop, es, rfl⟩ := h
  exact ⟨stop, es ++ [e], by simp⟩

theorem refines_constructed : Refines cls iface (constructed cls iface) where
  initial _ := rfl
  reaches stop _ := ⟨stop, [], rfl⟩

/-- A call of `stop` leaves less to find. -/
theorem refines_stop (h : Refines cls iface t) : Refines cls iface t.stop where
  initial hpc := by
    rw [stop_backoff]
    exact h.initial (by simpa using hpc)
  reaches found hfind := by
    have hmonitor : t.stop.toMonitor (phaseAt found t.stop.pc) found =
        t.toMonitor (phaseAt found t.pc) found := by
      unfold stop
      split <;> rfl
    rw [hmonitor]
    refine h.reaches found ?_
    unfold stop at hfind
    cases hpc : t.pc <;> cases hcall : t.stopCall <;> simp_all [CanFind]

/-- A turn of the event loop is a step of the monitor. -/
theorem reaches_turn (h : Reaches cls iface (t.toMonitor .attached false))
    (outcome : PollOutcome) (stop : Bool) : Reaches cls iface
      ((t.pollTurn outcome).toMonitor (phaseAt stop (t.pollTurn outcome).pc) stop) := by
  have hstep := reaches_step h (.poll outcome stop)
  cases outcome with
  | message raw =>
    by_cases hterminating : (WpaMonitor.parseEvent raw t.iface).type = .terminating <;>
      simpa [pollTurn, WpaMonitor.pollTurn, WpaMonitor.handleEvent, WpaMonitor.step, toMonitor,
        WpaMonitor.sleepUnlessStopped, phaseAt, hterminating] using hstep
  | interrupted | failed | timeout | noInput | recvFailed => exact hstep

/-- `start` makes a step of the monitor where it ends in a check of the flag, and none elsewhere. -/
theorem reaches_advance (h : Refines cls iface t) (env : Environment) (stop : Bool)
    (hfind : (t.advance env).1.CanFind stop) :
    Reaches cls iface ((t.advance env).1.toMonitor (phaseAt stop (t.advance env).1.pc) stop) := by
  obtain ⟨name, fsm, ctrl, backoff, flag, pc, call⟩ := t
  cases pc with
  | reset =>
    obtain rfl : backoff = WpaMonitor.kInitialBackoff := h.initial rfl
    exact h.reaches stop trivial
  | loopHead =>
    cases flag with
    | false =>
      obtain rfl : stop = false := hfind
      exact h.reaches false fun hset => hset
    | true =>
      obtain rfl : stop = true := hfind
      exact reaches_step (h.reaches true fun _ => rfl) (.connect .openFailed false)
  | openCtrl =>
    cases hopened : env.opened with
    | true =>
      simp only [advance, hopened, if_true] at hfind ⊢
      obtain rfl : stop = false := hfind
      exact h.reaches false rfl
    | false =>
      simp only [advance, hopened, Bool.false_eq_true, if_false] at hfind ⊢
      exact reaches_step (h.reaches false rfl) (.connect .openFailed stop)
  | attach =>
    cases hattached : env.attached with
    | true =>
      simp only [advance, hattached, if_true] at hfind ⊢
      exact reaches_step (h.reaches false rfl) (.connect .attached stop)
    | false =>
      simp only [advance, hattached, Bool.false_eq_true, if_false] at hfind ⊢
      exact reaches_step (h.reaches false rfl) (.connect .attachFailed stop)
  | eventLoopHead =>
    cases flag with
    | false =>
      obtain rfl : stop = false := hfind
      exact h.reaches false fun hset => hset
    | true =>
      obtain rfl : stop = true := hfind rfl
      exact reaches_step (h.reaches true fun _ => rfl) (.poll .timeout false)
  | poll =>
    exact reaches_turn (h.reaches false rfl) _ stop
  | detach => exact h.reaches stop hfind
  | lostCheck =>
    cases flag with
    | false => exact h.reaches stop hfind
    | true =>
      obtain rfl : stop = true := hfind
      exact h.reaches true fun _ => rfl
  | sleepCheck =>
    cases flag with
    | false =>
      obtain rfl : stop = false := hfind
      exact h.reaches false fun hset => hset
    | true =>
      obtain rfl : stop = true := hfind
      exact h.reaches true fun _ => rfl
  | sleep => exact reaches_step (h.reaches false rfl) (.sleep stop)
  | returned => exact h.reaches stop hfind

theorem refines_step (h : Refines cls iface t) (e : ThreadEvent) :
    Refines cls iface (t.step e) := by
  cases e with
  | stop => exact refines_stop h
  | start env =>
    exact {
      initial := fun hpc => absurd hpc (advance_pc_ne_reset t env)
      reaches := reaches_advance h env }

/-- In every run of the thread, with `stop` called at any point of it, the interface, the machine
and the back-off are those of a run of the monitor, in the phase that the thread has reached. -/
theorem refines_throughout (cls : PathClassConfig) (iface : Bytes) (es : List ThreadEvent) :
    Throughout step (Refines cls iface) (constructed cls iface) es :=
  throughout_of_invariant (P := Refines cls iface) (fun _ e h => refines_step h e)
    refines_constructed es

end MonitorThread
end WifiOffload
