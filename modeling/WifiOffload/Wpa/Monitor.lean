import WifiOffload.Config.Accepted
import WifiOffload.Library.StateMachine
import WifiOffload.Wpa.ParseEvent

/-!
# The event monitor

`WpaMonitor::start` with its event loop, `wpa/wpa_monitor.cpp`, one step for each turn of a loop:
an attempt to open and attach, a turn of the event loop, a back-off sleep. The callback feeds a
machine, as the daemon sets it. A call of `stop` comes in at any time: each step says whether one
came in after the check at its start, and it counts in the checks the step makes later.

A machine stays live without a monitor when a poll or recv error ends the event loop: only
`Terminating` is an event for the machine. `ReportsLoss` is the condition on a step that excludes
it.
-/

namespace WifiOffload

open StateMachine

/-- Where `start` is: before `wpa_ctrl_open`, in the event loop, in the back-off sleep, or out
of its loop. -/
inductive MonitorPhase where
  | connecting | attached | backingOff | stopped
  deriving DecidableEq, Repr

inductive ConnectOutcome where
  | openFailed | attachFailed | attached
  deriving DecidableEq, Repr

/-- What `poll` and `wpa_ctrl_recv` give in a turn of the event loop. -/
inductive PollOutcome where
  | interrupted | failed | timeout | noInput | recvFailed
  | message (raw : Bytes)
  deriving DecidableEq, Repr

structure WpaMonitor where
  iface : Bytes
  fsm : PathStateFsm
  phase : MonitorPhase := .connecting
  backoff : Nat := 1
  stopRequested : Bool := false
  deriving DecidableEq, Repr

namespace WpaMonitor

def kInitialBackoff : Nat := 1
def kMaxBackoff : Nat := 30

/-- A step of `start`, and whether `stop` was called while it was under way. -/
inductive Step where
  | connect (outcome : ConnectOutcome) (stop : Bool)
  | poll (outcome : PollOutcome) (stop : Bool)
  | sleep (stop : Bool)
  deriving DecidableEq, Repr

/-- Parse an event and pass it on; the second component says that the event loop is over. -/
def handleEvent (m : WpaMonitor) (raw : Bytes) : WpaMonitor × Bool :=
  let ev := parseEvent raw m.iface
  ({ m with fsm := (m.fsm.onWpaEvent ev).1 }, ev.type = .terminating)

/-- A turn of the event loop; the second component says that the loop is over. -/
def pollTurn (m : WpaMonitor) : PollOutcome → WpaMonitor × Bool
  | .interrupted | .timeout | .noInput => (m, false)
  | .failed | .recvFailed => (m, true)
  | .message raw => m.handleEvent raw

/-- The check of `stopRequested_` before the back-off sleep. -/
def sleepUnlessStopped (m : WpaMonitor) : WpaMonitor :=
  { m with phase := if m.stopRequested then .stopped else .backingOff }

def step (m : WpaMonitor) : Step → WpaMonitor
  | .connect outcome stop =>
    if m.phase ≠ .connecting then m
    else if m.stopRequested then { m with phase := .stopped }
    else
      let m := { m with stopRequested := stop }
      match outcome with
      | .openFailed | .attachFailed => m.sleepUnlessStopped
      | .attached => { m with phase := .attached, backoff := kInitialBackoff }
  | .poll outcome stop =>
    if m.phase ≠ .attached then m
    else if m.stopRequested then { m with phase := .stopped }
    else
      let turn := m.pollTurn outcome
      let m := { turn.1 with stopRequested := stop }
      if turn.2 then m.sleepUnlessStopped else m
  | .sleep stop =>
    if m.phase ≠ .backingOff then m
    else { m with
      phase := .connecting
      backoff := min (m.backoff * 2) kMaxBackoff
      stopRequested := m.stopRequested || stop }

/-- The start of the monitor of a class, its machine in `Idle`. -/
def start (cls : PathClassConfig) (iface : Bytes) : WpaMonitor :=
  { iface, fsm := { config := cls } }

/-- In the back-off sleep, or retrying to open. -/
def Detached (m : WpaMonitor) : Prop := m.phase = .connecting ∨ m.phase = .backingOff

instance (m : WpaMonitor) : Decidable m.Detached := inferInstanceAs (Decidable (_ ∨ _))

/-- The machine of a detached monitor is in no live state. -/
def Reported (m : WpaMonitor) : Prop := m.Detached → isDownState m.fsm.state = true

instance (m : WpaMonitor) : Decidable m.Reported := inferInstanceAs (Decidable (_ → _))

/-- No error ends the event loop while the machine is live, but one that `stop` comes before. -/
def ReportsLoss (m : WpaMonitor) : Step → Prop
  | .poll outcome stop =>
    outcome = .failed ∨ outcome = .recvFailed → m.phase = .attached → m.stopRequested = false →
      stop = false → isDownState m.fsm.state = true
  | .connect .. | .sleep _ => True

variable {m : WpaMonitor}

/-- `Terminating` leaves the machine in `Idle`. -/
theorem handleEvent_down {raw : Bytes} (h : (m.handleEvent raw).2 = true) :
    isDownState (m.handleEvent raw).1.fsm.state = true := by
  have hterminating : (parseEvent raw m.iface).type = .terminating := by
    simpa [handleEvent] using h
  simp [handleEvent, PathStateFsm.nextState, hterminating, isDownState]

/-- A turn of the event loop that ends it without an error leaves the machine down. -/
theorem pollTurn_down {outcome : PollOutcome} (h : (m.pollTurn outcome).2 = true)
    (hfailed : outcome ≠ .failed) (hrecv : outcome ≠ .recvFailed) :
    isDownState (m.pollTurn outcome).1.fsm.state = true := by
  cases outcome with
  | message raw => exact handleEvent_down h
  | failed | recvFailed => contradiction
  | interrupted | timeout | noInput => cases h

theorem pollTurn_error {outcome : PollOutcome} (h : outcome = .failed ∨ outcome = .recvFailed) :
    m.pollTurn outcome = (m, true) := by
  rcases h with rfl | rfl <;> rfl

theorem pollTurn_phase (outcome : PollOutcome) : (m.pollTurn outcome).1.phase = m.phase := by
  cases outcome <;> rfl

theorem reported_sleepUnlessStopped : m.sleepUnlessStopped.Reported ↔
    (m.stopRequested = false → isDownState m.fsm.state = true) := by
  cases hstop : m.stopRequested <;> simp [Reported, Detached, sleepUnlessStopped, hstop]

/-- One step of a monitor whose machine is down while it is detached. -/
theorem reported_step_iff (hm : m.Reported) (e : Step) : (m.step e).Reported ↔ m.ReportsLoss e := by
  cases e with
  | connect outcome stop =>
    refine iff_of_true ?_ trivial
    simp only [step]
    split
    · exact hm
    next hphase =>
    split
    · simp [Reported, Detached]
    · have hdown : isDownState m.fsm.state = true := hm (.inl (not_not.mp hphase))
      cases outcome with
      | openFailed | attachFailed => exact reported_sleepUnlessStopped.mpr fun _ => hdown
      | attached => simp [Reported, Detached]
  | poll outcome stop =>
    simp only [step, ReportsLoss]
    split
    · next hphase => exact iff_of_true hm fun _ h => absurd h hphase
    next hphase =>
    split
    · next hstop =>
      exact iff_of_true (by simp [Reported, Detached]) fun _ _ h => by simp [hstop] at h
    next hstop =>
    rw [not_not] at hphase
    have hrunning : m.stopRequested = false := by simpa using hstop
    by_cases herror : outcome = .failed ∨ outcome = .recvFailed
    · rw [pollTurn_error herror, if_pos rfl, reported_sleepUnlessStopped]
      exact ⟨fun h _ _ _ => h, fun h => h herror hphase hrunning⟩
    · refine iff_of_true ?_ fun h => absurd h herror
      rw [not_or] at herror
      split
      · next hover =>
        exact reported_sleepUnlessStopped.mpr fun _ => pollTurn_down hover herror.1 herror.2
      · simp [Reported, Detached, pollTurn_phase, hphase]
  | sleep stop =>
    refine iff_of_true ?_ trivial
    simp only [step]
    split
    · exact hm
    · next hphase => exact fun _ => hm (.inr (not_not.mp hphase))

/-- The machine is down whenever the monitor is detached, exactly in the runs in which no error
ends the event loop with the machine live. -/
theorem reported_throughout_iff (cls : PathClassConfig) (iface : Bytes) (es : List Step) :
    Throughout step Reported (start cls iface) es ↔
      StepsMeet step ReportsLoss (start cls iface) es :=
  throughout_iff_stepsMeet (I := fun _ => True) (fun _ _ _ => trivial)
    (fun _ e _ hm => reported_step_iff hm e) trivial (fun _ => rfl) es

/-- The path of `multipath` stays up when `poll` fails, and while the monitor sleeps. -/
theorem live_while_detached :
    let cls := pathPolicies.head (by decide)
    let connected := Bytes.ascii "<3>CTRL-EVENT-CONNECTED - Connection to 02:00:00:00:01:00 completed"
    let es : List Step := [.connect .attached false, .poll (.message connected) false, .poll .failed false]
    let m := run step (start cls (Bytes.ascii "eth0.100")) es
    m.phase = .backingOff ∧ m.fsm.state = .pathUp ∧
      ¬ Throughout step Reported (start cls (Bytes.ascii "eth0.100")) es := by
  decide

end WpaMonitor
end WifiOffload
