import WifiOffload.Library.Unwinding
import WifiOffload.Wpa.Monitor

/-!
# The monitor thread

`WpaMonitor::start` and `runEventLoop`, `wpa/wpa_monitor.cpp`, one step for each access to
`stopRequested_`, each call of `wpa_ctrl` and each turn of `poll`, so that a call of `stop` from
another thread can come between any two of them. `stop` itself takes two steps: the store, and
the notification with which it returns.

The environment of a step says how the calls in it come out. `poll` asks for `POLLIN` on one
descriptor; when it counts the descriptor, some bit of `revents` is set.
-/

namespace WifiOffload

open StateMachine

/-- The `revents` of a descriptor that `poll` counted. -/
structure Revents where
  pollin : Bool
  pollerr : Bool
  pollhup : Bool
  pollnval : Bool
  reported : (pollin || pollerr || pollhup || pollnval) = true
  deriving DecidableEq, Repr

/-- What `poll` returns: -1 with `errno`, 0 at the end of `kPollTimeoutMs`, or 1. -/
inductive PollReturn where
  | error (interrupted : Bool)
  | timeout
  | ready (revents : Revents)
  deriving DecidableEq, Repr

/-- `poll` reports an error, a hang-up or an invalid descriptor, and nothing to read. -/
def PollReturn.Dead : PollReturn → Prop
  | .ready revents => revents.pollin = false
  | .error _ | .timeout => False

instance : DecidablePred PollReturn.Dead
  | .ready revents => inferInstanceAs (Decidable (revents.pollin = false))
  | .error _ | .timeout => inferInstanceAs (Decidable False)

/-- The branch that `runEventLoop` takes; `received` is what `wpa_ctrl_recv` gives. -/
def PollReturn.outcome (received : Option Bytes) : PollReturn → PollOutcome
  | .error true => .interrupted
  | .error false => .failed
  | .timeout => .timeout
  | .ready revents =>
    if !revents.pollin then .noInput
    else match received with
      | some raw => .message raw
      | none => .recvFailed

/-- How the calls of one step come out, those of `wpa_ctrl_open`, `wpa_ctrl_attach`, `poll` and
`wpa_ctrl_recv`. -/
structure Environment where
  opened : Bool := false
  attached : Bool := false
  polled : PollReturn := .timeout
  received : Option Bytes := none
  deriving DecidableEq, Repr

/-- The statement that the thread comes to next. -/
inductive ThreadPoint where
  /-- `stopRequested_.store(false)`, the first statement of `start` -/
  | reset
  /-- the condition of the reconnect loop -/
  | loopHead
  | openCtrl
  | attach
  /-- the condition of the event loop -/
  | eventLoopHead
  | poll
  | detach
  /-- the check after the event loop -/
  | lostCheck
  /-- the check before the back-off sleep -/
  | sleepCheck
  | sleep
  | returned
  deriving DecidableEq, Repr

/-- How far the other thread is in its call of `stop`. -/
inductive StopCall where
  | notCalled | stored | returned
  deriving DecidableEq, Repr

structure MonitorThread where
  iface : Bytes
  fsm : PathStateFsm
  /-- `ctrl_` is not null. -/
  ctrl : Bool := false
  backoff : Nat := WpaMonitor.kInitialBackoff
  stopRequested : Bool := false
  pc : ThreadPoint := .reset
  stopCall : StopCall := .notCalled
  deriving DecidableEq, Repr

inductive ThreadEvent where
  /-- a step of the thread that runs `start` -/
  | start (env : Environment)
  /-- a step of the thread that calls `stop` -/
  | stop
  deriving DecidableEq, Repr

/-- What a step does to the outside. -/
inductive ThreadEffect where
  | ctrlOpen
  | attached
  | turn (outcome : PollOutcome)
  | ctrlClose
  | sleeps (seconds : Nat)
  deriving DecidableEq, Repr

def ThreadEvent.isStart : ThreadEvent → Bool
  | .start _ => true
  | .stop => false

namespace MonitorThread

open WpaMonitor

/-- The monitor as `Wpa/Monitor.lean` has it, in `phase`. -/
def toMonitor (t : MonitorThread) (phase : MonitorPhase) (stopRequested : Bool) : WpaMonitor :=
  { iface := t.iface, fsm := t.fsm, phase, backoff := t.backoff, stopRequested }

/-- A turn of the event loop: the machine takes the event, and a turn that ends the loop goes on
to the detach. -/
def pollTurn (t : MonitorThread) (outcome : PollOutcome) : MonitorThread :=
  let turn := (t.toMonitor .attached t.stopRequested).pollTurn outcome
  { t with fsm := turn.1.fsm, pc := if turn.2 then .detach else .eventLoopHead }

/-- One step of `start`. -/
def advance (t : MonitorThread) (env : Environment) : MonitorThread × List ThreadEffect :=
  match t.pc with
  | .reset => ({ t with stopRequested := false, backoff := kInitialBackoff, pc := .loopHead }, [])
  | .loopHead => ({ t with pc := if t.stopRequested then .returned else .openCtrl }, [])
  | .openCtrl =>
    if env.opened then ({ t with ctrl := true, pc := .attach }, [.ctrlOpen])
    else ({ t with ctrl := false, pc := .sleepCheck }, [.ctrlOpen])
  | .attach =>
    if env.attached then ({ t with backoff := kInitialBackoff, pc := .eventLoopHead }, [.attached])
    else ({ t with ctrl := false, pc := .sleepCheck }, [.ctrlClose])
  | .eventLoopHead => ({ t with pc := if t.stopRequested then .detach else .poll }, [])
  | .poll =>
    let outcome := env.polled.outcome env.received
    (t.pollTurn outcome, [.turn outcome])
  | .detach => ({ t with ctrl := false, pc := .lostCheck }, [.ctrlClose])
  | .lostCheck => ({ t with pc := if t.stopRequested then .returned else .sleepCheck }, [])
  | .sleepCheck =>
    if t.stopRequested then ({ t with pc := .returned }, [])
    else ({ t with pc := .sleep }, [.sleeps t.backoff])
  | .sleep => ({ t with backoff := min (t.backoff * 2) kMaxBackoff, pc := .loopHead }, [])
  | .returned => (t, [])

/-- One step of the one call of `stop`. -/
def stop (t : MonitorThread) : MonitorThread :=
  match t.stopCall with
  | .notCalled => { t with stopRequested := true, stopCall := .stored }
  | .stored => { t with stopCall := .returned }
  | .returned => t

def step (t : MonitorThread) : ThreadEvent → MonitorThread
  | .start env => (t.advance env).1
  | .stop => t.stop

def effects (t : MonitorThread) : ThreadEvent → List ThreadEffect
  | .start env => (t.advance env).2
  | .stop => []

/-- The monitor of a class once it is constructed, with `start` and `stop` still to be called. -/
def constructed (cls : PathClassConfig) (iface : Bytes) : MonitorThread :=
  { iface, fsm := { config := cls } }

/-- What the run does to the outside. -/
def log (t : MonitorThread) (es : List ThreadEvent) : List ThreadEffect :=
  observed step effects t es

variable {t : MonitorThread}

@[simp] theorem step_start (t : MonitorThread) (env : Environment) :
    t.step (.start env) = (t.advance env).1 := rfl

@[simp] theorem step_stop (t : MonitorThread) : t.step .stop = t.stop := rfl

@[simp] theorem effects_start (t : MonitorThread) (env : Environment) :
    t.effects (.start env) = (t.advance env).2 := rfl

@[simp] theorem effects_stop (t : MonitorThread) : t.effects .stop = [] := rfl

@[simp] theorem log_nil (t : MonitorThread) : t.log [] = [] := rfl

@[simp] theorem log_append (t : MonitorThread) (es fs : List ThreadEvent) :
    t.log (es ++ fs) = t.log es ++ (run step t es).log fs := observed_append t es fs

@[simp] theorem log_cons (t : MonitorThread) (e : ThreadEvent) (es : List ThreadEvent) :
    t.log (e :: es) = t.effects e ++ (t.step e).log es := rfl

@[simp] theorem stop_pc (t : MonitorThread) : t.stop.pc = t.pc := by
  unfold stop; split <;> rfl

@[simp] theorem stop_ctrl (t : MonitorThread) : t.stop.ctrl = t.ctrl := by
  unfold stop; split <;> rfl

@[simp] theorem stop_backoff (t : MonitorThread) : t.stop.backoff = t.backoff := by
  unfold stop; split <;> rfl

@[simp] theorem pollTurn_backoff (t : MonitorThread) (outcome : PollOutcome) :
    (t.pollTurn outcome).backoff = t.backoff := rfl

/-- A turn of the event loop ends it or goes back to its condition. -/
theorem pollTurn_pc (t : MonitorThread) (outcome : PollOutcome) :
    (t.pollTurn outcome).pc = .detach ∨ (t.pollTurn outcome).pc = .eventLoopHead := by
  simp only [pollTurn]
  split
  · exact .inl rfl
  · exact .inr rfl

@[simp] theorem advance_stopCall (t : MonitorThread) (env : Environment) :
    (t.advance env).1.stopCall = t.stopCall := by
  simp only [advance, pollTurn]
  split <;> (try split) <;> rfl

/-- A step does at most one thing to the outside. -/
theorem effects_length (t : MonitorThread) (e : ThreadEvent) : (t.effects e).length ≤ 1 := by
  cases e with
  | stop => simp
  | start env =>
    simp only [effects_start, advance]
    split <;> (try split) <;> simp

/-- `start` writes the flag in its first statement only. -/
theorem advance_stopRequested (t : MonitorThread) (env : Environment) (h : t.pc ≠ .reset) :
    (t.advance env).1.stopRequested = t.stopRequested := by
  simp only [advance, pollTurn]
  split <;> (try split) <;> first | rfl | contradiction

/-- `start` does not come to its first statement again. -/
theorem advance_pc_ne_reset (t : MonitorThread) (env : Environment) :
    (t.advance env).1.pc ≠ .reset := by
  simp only [advance, pollTurn]
  split <;> (try split) <;> simp_all

theorem step_pc_ne_reset (t : MonitorThread) (e : ThreadEvent) (h : t.pc ≠ .reset) :
    (t.step e).pc ≠ .reset := by
  cases e with
  | stop => simpa using h
  | start env => exact advance_pc_ne_reset t env

end MonitorThread
end WifiOffload
