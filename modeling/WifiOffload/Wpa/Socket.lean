import WifiOffload.Wpa.Ctrl
import WifiOffload.Wpa.Thread

/-!
# The monitor and its socket

The monitor thread with the control interface library in place of its outcomes: `wpa_ctrl_open`
with the files, sockets and memory it takes, `wpa_ctrl_attach` and `wpa_ctrl_detach` turn by turn,
and `wpa_ctrl_recv` on the queue of messages at the socket. Messages arrive between any two steps.
Every run is a run of the monitor thread, and every message that arrives is accounted for.
-/

namespace WifiOffload

open StateMachine

def kRecvBufSize : Nat := 4096

/-- How the calls of one step come out. -/
structure SocketEnv where
  opening : OpenEnv := {}
  sent : SendReturn := .sent
  now : Reltime := {}
  selected : SelectReturn := .ready
  polled : PollReturn := .timeout
  recvFails : Bool := false
  deriving DecidableEq, Repr

/-- The messages of one connection, by what became of them. -/
structure CtrlConnection where
  arrived : List Bytes := []
  /-- read by the attach and dropped -/
  ignored : List Bytes := []
  attachReply : Option Bytes := none
  handled : List Bytes := []
  /-- read by the detach and dropped -/
  skipped : List Bytes := []
  detachReply : Option Bytes := none
  deriving DecidableEq, Repr

/-- The messages that were read, in the order of their fates. -/
def CtrlConnection.read (c : CtrlConnection) : List Bytes :=
  c.ignored ++ c.attachReply.toList ++ c.handled ++ c.skipped ++ c.detachReply.toList

structure MonitorSocket where
  thread : MonitorThread
  sys : CtrlSystem := {}
  ctrl : Option WpaCtrl := none
  /-- what is at the socket -/
  queue : List Bytes := []
  request : RequestPoint := .start
  connection : CtrlConnection := {}
  /-- what was handled on earlier connections -/
  before : List Bytes := []
  deriving DecidableEq, Repr

inductive SocketEvent where
  | arrive (msg : Bytes)
  | start (env : SocketEnv)
  | stop
  deriving DecidableEq, Repr

namespace MonitorSocket

variable (pid : Nat) (ctrlPath : Bytes)

/-- What `recv` gives, none for an error. -/
def recv (t : MonitorSocket) (env : SocketEnv) : Option Bytes :=
  if env.recvFails then none else t.queue.head?

def requestEnv (t : MonitorSocket) (env : SocketEnv) : RequestEnv :=
  { sent := env.sent, now := env.now, selected := env.selected, received := t.recv env }

/-- The message that a turn of a request reads. -/
def requestRead (t : MonitorSocket) (env : SocketEnv) : Option Bytes :=
  if t.request = .receive ∧ env.selected = .ready then t.recv env else none

/-- The messages behind the one that is read, if one is. -/
def behind (t : MonitorSocket) (msg : Option Bytes) : List Bytes :=
  match msg with
  | none => t.queue
  | some _ => t.queue.tail

/-- `wpa_ctrl_close(ctrl_)`; `ctrl_ = nullptr`. -/
def close (t : MonitorSocket) : MonitorSocket :=
  { t with
    sys := match t.ctrl with
      | some ctrl => wpaCtrlClose ctrl t.sys
      | none => t.sys
    ctrl := none }

def openStep (t : MonitorSocket) (env : SocketEnv) : MonitorSocket :=
  let r := wpaCtrlOpen pid ctrlPath env.opening t.sys
  { t with
    thread := (t.thread.advance { opened := r.1.isSome }).1
    ctrl := r.1
    sys := r.2
    queue := []
    request := .start
    connection := {}
    before := t.before ++ t.connection.handled }

def attachStep (t : MonitorSocket) (env : SocketEnv) : MonitorSocket :=
  let msg := t.requestRead env
  match requestTurn attachReplyLen (t.requestEnv env) t.request with
  | .goesOn point =>
    { t with
      request := point
      queue := t.behind msg
      connection := { t.connection with ignored := t.connection.ignored ++ msg.toList } }
  | .returns res reply =>
    let attached : Bool := attachResult res reply = 0
    let t' := { t with
      thread := (t.thread.advance { attached }).1
      request := .start
      queue := t.behind msg
      connection := { t.connection with attachReply := msg } }
    if attached then t' else t'.close

/-- What the event loop is given of the next message. -/
def received (t : MonitorSocket) (env : SocketEnv) : Option Bytes :=
  (t.recv env).map (·.take (kRecvBufSize - 1))

/-- The message that a turn of the event loop reads. -/
def pollRead (t : MonitorSocket) (env : SocketEnv) : Option Bytes :=
  match env.polled.outcome (t.received env) with
  | .message _ => t.recv env
  | _ => none

def pollStep (t : MonitorSocket) (env : SocketEnv) : MonitorSocket :=
  let read := t.pollRead env
  { t with
    thread := (t.thread.advance { polled := env.polled, received := t.received env }).1
    queue := t.behind read
    connection := { t.connection with handled := t.connection.handled ++ read.toList } }

def detachStep (t : MonitorSocket) (env : SocketEnv) : MonitorSocket :=
  let msg := t.requestRead env
  match requestTurn attachReplyLen (t.requestEnv env) t.request with
  | .goesOn point =>
    { t with
      request := point
      queue := t.behind msg
      connection := { t.connection with skipped := t.connection.skipped ++ msg.toList } }
  | .returns _ _ =>
    let t' := { t with
      thread := (t.thread.advance {}).1
      request := .start
      queue := t.behind msg
      connection := { t.connection with detachReply := msg } }
    t'.close

/-- One step of `start`. -/
def advance (t : MonitorSocket) (env : SocketEnv) : MonitorSocket :=
  match t.thread.pc with
  | .openCtrl => t.openStep pid ctrlPath env
  | .attach => t.attachStep env
  | .poll => t.pollStep env
  | .detach => t.detachStep env
  | _ => { t with thread := (t.thread.advance {}).1 }

/-- A message reaches the socket while there is one. -/
def arrive (t : MonitorSocket) (msg : Bytes) : MonitorSocket :=
  if t.ctrl.isSome then
    { t with
      queue := t.queue ++ [msg]
      connection := { t.connection with arrived := t.connection.arrived ++ [msg] } }
  else t

def step (t : MonitorSocket) : SocketEvent → MonitorSocket
  | .arrive msg => t.arrive msg
  | .start env => t.advance pid ctrlPath env
  | .stop => { t with thread := t.thread.stop }

/-- The monitor of a class once it is constructed. -/
def constructed (cls : PathClassConfig) (iface : Bytes) (sys : CtrlSystem) : MonitorSocket :=
  { thread := .constructed cls iface, sys }

variable {pid ctrlPath} {t : MonitorSocket}

/-! ## The monitor thread -/

/-- A step is one of the thread, or none of it. -/
theorem step_thread (pid : Nat) (ctrlPath : Bytes) (t : MonitorSocket) (e : SocketEvent) :
    (t.step pid ctrlPath e).thread = t.thread ∨
      ∃ f, (t.step pid ctrlPath e).thread = t.thread.step f := by
  cases e with
  | arrive msg =>
    refine .inl ?_
    simp only [step, arrive]
    split <;> rfl
  | stop => exact .inr ⟨.stop, rfl⟩
  | start env =>
    simp only [step, advance]
    split
    · exact .inr ⟨.start { opened := _ }, rfl⟩
    · simp only [attachStep]
      split
      · exact .inl rfl
      · split
        · exact .inr ⟨.start { attached := _ }, rfl⟩
        · exact .inr ⟨.start { attached := _ }, rfl⟩
    · exact .inr ⟨.start { polled := env.polled, received := _ }, rfl⟩
    · simp only [detachStep]
      split
      · exact .inl rfl
      · exact .inr ⟨.start {}, rfl⟩
    · exact .inr ⟨.start {}, rfl⟩

/-- What holds along all runs of the thread holds along all runs with the socket. -/
theorem throughout_of_thread {P : MonitorThread → Prop}
    (h : ∀ es, Throughout MonitorThread.step P t.thread es) (events : List SocketEvent) :
    Throughout (step pid ctrlPath) (fun t => P t.thread) t events := by
  induction events generalizing t with
  | nil => exact h []
  | cons e events ih =>
    refine ⟨h [], ih fun es => ?_⟩
    rcases step_thread pid ctrlPath t e with hsame | ⟨f, hstep⟩
    · rw [hsame]
      exact h es
    · rw [hstep]
      exact (h (f :: es)).2

/-! ## The messages -/

/-- The machine behind a message; a longer one is cut to the buffer. -/
def handle (iface : Bytes) (m : PathStateFsm) (msg : Bytes) : PathStateFsm :=
  (m.onWpaEvent (WpaMonitor.parseEvent (msg.take (kRecvBufSize - 1)) iface)).1

/-- What the point of the thread says about the connection. -/
def Stage (t : MonitorSocket) : Prop :=
  match t.thread.pc with
  | .attach => t.ctrl.isSome = true ∧ t.connection.attachReply = none ∧
      t.connection.handled = [] ∧ t.connection.skipped = [] ∧ t.connection.detachReply = none
  | .eventLoopHead | .poll => t.ctrl.isSome = true ∧ t.connection.attachReply = some okReply ∧
      t.connection.skipped = [] ∧ t.connection.detachReply = none
  | .detach => t.ctrl.isSome = true ∧ t.connection.attachReply = some okReply ∧
      t.connection.detachReply = none
  | _ => t.ctrl = none

/-- Every message that arrived on the connection is at the socket or was read, in this order: by
the attach, which drops events up to the confirmation, by the event loop, and by the detach. The
machine has handled those of the event loops and no others. -/
structure Accounted (cls : PathClassConfig) (iface : Bytes) (t : MonitorSocket) : Prop where
  arrived : t.connection.arrived = t.connection.read ++ t.queue
  ignored : ∀ msg ∈ t.connection.ignored, isUnsolicited msg = true
  skipped : ∀ msg ∈ t.connection.skipped, isUnsolicited msg = true
  confirmed : t.connection.handled ≠ [] ∨ t.connection.skipped ≠ [] →
    t.connection.attachReply = some okReply
  machine : t.thread.fsm = (t.before ++ t.connection.handled).foldl (handle iface) { config := cls }

theorem recv_cases (t : MonitorSocket) (env : SocketEnv) :
    t.recv env = none ∨ t.recv env = t.queue.head? := by
  unfold recv
  split
  · exact .inl rfl
  · exact .inr rfl

/-- What is read is taken from the front of the queue. -/
theorem queue_eq {env : SocketEnv} {msg : Option Bytes} (h : msg = none ∨ msg = t.recv env) :
    t.queue = msg.toList ++ t.behind msg := by
  cases msg with
  | none => rfl
  | some m =>
    have hrecv : t.recv env = some m := (h.resolve_left (Option.some_ne_none m)).symm
    have hhead : t.queue.head? = some m := by
      rcases t.recv_cases env with hnone | hsome
      · rw [hrecv] at hnone
        cases hnone
      · rw [← hsome, hrecv]
    exact (List.cons_head?_tail hhead).symm

theorem requestRead_cases (t : MonitorSocket) (env : SocketEnv) :
    t.requestRead env = none ∨ t.requestRead env = t.recv env := by
  unfold requestRead
  split
  · exact .inr rfl
  · exact .inl rfl

/-- A request goes on past events, and succeeds with the confirmation. -/
theorem requestTurn_cases (t : MonitorSocket) (env : SocketEnv) :
    (∃ point, requestTurn attachReplyLen (t.requestEnv env) t.request = .goesOn point ∧
        ∀ msg ∈ t.requestRead env, isUnsolicited msg = true) ∨
      ∃ res reply, requestTurn attachReplyLen (t.requestEnv env) t.request = .returns res reply ∧
        (attachResult res reply = 0 → t.requestRead env = some okReply) := by
  unfold requestRead
  cases hpoint : t.request with
  | send startedAt =>
    simp only [requestTurn]
    split
    · exact .inl ⟨_, rfl, by simp⟩
    · exact .inr ⟨_, _, rfl, by simp [attachResult]⟩
    · split
      · exact .inl ⟨_, rfl, by simp⟩
      · split
        · exact .inr ⟨_, _, rfl, by simp [attachResult]⟩
        · exact .inl ⟨_, rfl, by simp⟩
  | receive =>
    rcases receiveTurn_cases (t.requestEnv env) with ⟨hpass, hturn⟩ | ⟨-, res, reply, hturn, hres⟩
    · refine .inl ⟨_, hturn, fun msg hmsg => ?_⟩
      rcases hpass with hint | ⟨hready, m, hm, huns⟩
      · have hsel : env.selected = .interrupted := hint
        simp [hsel] at hmsg
      · have hrecv : t.recv env = some m := hm
        split at hmsg
        · rw [hrecv, Option.mem_some_iff] at hmsg
          rwa [← hmsg]
        · cases hmsg
    · refine .inr ⟨res, reply, hturn, fun hzero => ?_⟩
      obtain ⟨hready, hrecv⟩ := hres.mp hzero
      exact (if_pos ⟨rfl, hready⟩).trans hrecv

/-- Only a turn of `poll` feeds the machine. -/
theorem advance_fsm {t : MonitorThread} (env : Environment) (h : t.pc ≠ .poll) :
    (t.advance env).1.fsm = t.fsm := by
  unfold MonitorThread.advance
  split <;> first | rfl | contradiction | (split <;> rfl)

@[simp] theorem stop_fsm (t : MonitorThread) : t.stop.fsm = t.fsm := by
  unfold MonitorThread.stop; split <;> rfl

@[simp] theorem stop_iface (t : MonitorThread) : t.stop.iface = t.iface := by
  unfold MonitorThread.stop; split <;> rfl

theorem advance_iface (t : MonitorThread) (env : Environment) :
    (t.advance env).1.iface = t.iface := by
  unfold MonitorThread.advance
  split <;> first | rfl | (split <;> rfl)

/-- The thread behind a turn of the event loop. -/
theorem advance_poll {t : MonitorThread} (env : Environment) (h : t.pc = .poll) :
    (t.advance env).1 = t.pollTurn (env.polled.outcome env.received) := by
  rw [MonitorThread.advance, h]

theorem pollTurn_fsm (t : MonitorThread) (outcome : PollOutcome) :
    (t.pollTurn outcome).fsm = match outcome with
      | .message raw => (t.fsm.onWpaEvent (WpaMonitor.parseEvent raw t.iface)).1
      | _ => t.fsm := by
  cases outcome <;> rfl

variable {cls : PathClassConfig} {iface : Bytes}

theorem Accounted.openStep (h : t.Accounted cls iface) (hpc : t.thread.pc = .openCtrl)
    (env : SocketEnv) : (t.openStep pid ctrlPath env).Accounted cls iface := by
  refine ⟨rfl, by simp [MonitorSocket.openStep], by simp [MonitorSocket.openStep],
    by simp [MonitorSocket.openStep], ?_⟩
  simp only [MonitorSocket.openStep]
  rw [advance_fsm _ (by simp [hpc]), h.machine]
  simp

theorem Stage.openStep (hpc : t.thread.pc = .openCtrl) (env : SocketEnv) :
    (t.openStep pid ctrlPath env).Stage := by
  simp only [Stage, MonitorSocket.openStep, MonitorThread.advance, hpc]
  cases hopen : (wpaCtrlOpen pid ctrlPath env.opening t.sys).1 with
  | none => simp
  | some ctrl => simp

/-- An attach drops events, and its connection comes to the event loop with the confirmation. -/
theorem attachStep_keeps (h : t.Accounted cls iface) (hstage : t.Stage)
    (hpc : t.thread.pc = .attach) (env : SocketEnv) :
    (t.attachStep env).Accounted cls iface ∧ (t.attachStep env).Stage := by
  have hqueue := t.queue_eq (t.requestRead_cases env)
  have hfsm (e : Environment) : (t.thread.advance e).1.fsm = t.thread.fsm :=
    advance_fsm e (by simp [hpc])
  rw [Stage, hpc] at hstage
  obtain ⟨hctrl, hreply, hhandled, hskipped, hdetach⟩ := hstage
  have harrived := h.arrived
  have hmachine := h.machine
  rw [hqueue] at harrived
  simp only [CtrlConnection.read, hreply, hhandled, hskipped, hdetach, Option.toList_none,
    List.append_nil] at harrived hmachine
  rcases t.requestTurn_cases env with ⟨point, hturn, huns⟩ | ⟨res, reply, hturn, hres⟩
  · simp only [attachStep, hturn]
    refine ⟨⟨?_, ?_, h.skipped, h.confirmed, h.machine⟩, ?_⟩
    · simp [CtrlConnection.read, hreply, hhandled, hskipped, hdetach, harrived]
    · intro msg hmsg
      rcases List.mem_append.mp hmsg with hmsg | hmsg
      · exact h.ignored msg hmsg
      · exact huns msg (by simpa using hmsg)
    · simp [Stage, hpc, hctrl, hreply, hhandled, hskipped, hdetach]
  · simp only [attachStep, hturn]
    by_cases hzero : attachResult res reply = 0
    · simp only [hzero, decide_true, if_true]
      refine ⟨⟨?_, h.ignored, h.skipped, ?_, ?_⟩, ?_⟩
      · simp [CtrlConnection.read, hhandled, hskipped, hdetach, harrived]
      · simp [hhandled, hskipped]
      · simp [hfsm, hmachine, hhandled]
      · simp [Stage, MonitorThread.advance, hpc, hctrl, hskipped, hdetach, hres hzero]
    · simp only [hzero, decide_false, Bool.false_eq_true, if_false]
      refine ⟨⟨?_, h.ignored, h.skipped, ?_, ?_⟩, ?_⟩
      · simp [close, CtrlConnection.read, hhandled, hskipped, hdetach, harrived]
      · simp [close, hhandled, hskipped]
      · simp [close, hfsm, hmachine, hhandled]
      · simp [Stage, close, MonitorThread.advance, hpc]

theorem outcome_eq_message {polled : PollReturn} {received : Option Bytes} {raw : Bytes}
    (h : polled.outcome received = .message raw) : received = some raw := by
  unfold PollReturn.outcome at h
  split at h
  · cases h
  · cases h
  · cases h
  · split at h
    · cases h
    · split at h
      · rw [PollOutcome.message.inj h]
      · cases h

theorem pollRead_cases (t : MonitorSocket) (env : SocketEnv) :
    t.pollRead env = none ∨ t.pollRead env = t.recv env := by
  unfold pollRead
  split
  · exact .inr rfl
  · exact .inl rfl

/-- The machine takes what is read. -/
theorem pollTurn_fsm_read (t : MonitorSocket) (env : SocketEnv) :
    (t.thread.pollTurn (env.polled.outcome (t.received env))).fsm =
      (t.pollRead env).toList.foldl (handle t.thread.iface) t.thread.fsm := by
  rw [pollTurn_fsm, pollRead]
  split
  · next raw hout =>
    obtain ⟨msg, hmsg, rfl⟩ := Option.map_eq_some_iff.mp (outcome_eq_message hout)
    rw [hmsg]
    rfl
  · rfl

/-- The event loop hands on what it reads. -/
theorem pollStep_keeps (h : t.Accounted cls iface) (hstage : t.Stage)
    (hiface : t.thread.iface = iface) (hpc : t.thread.pc = .poll) (env : SocketEnv) :
    (t.pollStep env).Accounted cls iface ∧ (t.pollStep env).Stage := by
  have hqueue := t.queue_eq (t.pollRead_cases env)
  rw [Stage, hpc] at hstage
  obtain ⟨hctrl, hreply, hskipped, hdetach⟩ := hstage
  have harrived := h.arrived
  rw [hqueue] at harrived
  simp only [CtrlConnection.read, hreply, hskipped, hdetach, Option.toList_none, List.append_nil]
    at harrived
  simp only [pollStep, advance_poll _ hpc]
  refine ⟨⟨?_, h.ignored, h.skipped, fun _ => hreply, ?_⟩, ?_⟩
  · simp [CtrlConnection.read, hreply, hskipped, hdetach, harrived]
  · simp only [pollTurn_fsm_read, h.machine, hiface]
    rw [← List.foldl_append, List.append_assoc]
  · rcases t.thread.pollTurn_pc (env.polled.outcome (t.received env)) with hpc' | hpc'
    · simp [Stage, hpc', hctrl, hreply, hdetach]
    · simp [Stage, hpc', hctrl, hreply, hskipped, hdetach]

/-- A detach drops the events that the loop has left. -/
theorem detachStep_keeps (h : t.Accounted cls iface) (hstage : t.Stage)
    (hpc : t.thread.pc = .detach) (env : SocketEnv) :
    (t.detachStep env).Accounted cls iface ∧ (t.detachStep env).Stage := by
  have hqueue := t.queue_eq (t.requestRead_cases env)
  rw [Stage, hpc] at hstage
  obtain ⟨hctrl, hreply, hdetach⟩ := hstage
  have harrived := h.arrived
  rw [hqueue] at harrived
  simp only [CtrlConnection.read, hdetach, Option.toList_none, List.append_nil] at harrived
  rcases t.requestTurn_cases env with ⟨point, hturn, huns⟩ | ⟨res, reply, hturn, -⟩
  · simp only [detachStep, hturn]
    refine ⟨⟨?_, h.ignored, ?_, fun _ => hreply, h.machine⟩, ?_⟩
    · simp [CtrlConnection.read, hdetach, harrived]
    · intro msg hmsg
      rcases List.mem_append.mp hmsg with hmsg | hmsg
      · exact h.skipped msg hmsg
      · exact huns msg (by simpa using hmsg)
    · simp [Stage, hpc, hctrl, hreply, hdetach]
  · simp only [detachStep, hturn]
    refine ⟨⟨?_, h.ignored, h.skipped, h.confirmed, ?_⟩, ?_⟩
    · simp [close, CtrlConnection.read, harrived]
    · simp only [close]
      rw [advance_fsm _ (by simp [hpc])]
      exact h.machine
    · simp [Stage, close, MonitorThread.advance, hpc]

/-- The steps between the calls of the library leave the connection alone. -/
theorem Stage.advance_other (hstage : t.Stage) (env : Environment) (hopen : t.thread.pc ≠ .openCtrl)
    (hattach : t.thread.pc ≠ .attach) (hpoll : t.thread.pc ≠ .poll)
    (hdetach : t.thread.pc ≠ .detach) :
    Stage { t with thread := (t.thread.advance env).1 } := by
  unfold Stage at *
  cases hpc : t.thread.pc with
  | openCtrl | attach | poll | detach => contradiction
  | eventLoopHead =>
    simp only [hpc] at hstage
    obtain ⟨hctrl, hreply, hskipped, hnone⟩ := hstage
    cases hstop : t.thread.stopRequested with
    | true => simp [MonitorThread.advance, hpc, hstop, hctrl, hreply, hnone]
    | false => simp [MonitorThread.advance, hpc, hstop, hctrl, hreply, hskipped, hnone]
  | reset | sleep | returned => simpa [hpc, MonitorThread.advance] using hstage
  | loopHead | lostCheck | sleepCheck =>
    simp only [hpc] at hstage
    cases hstop : t.thread.stopRequested with
    | true => simpa [MonitorThread.advance, hpc, hstop] using hstage
    | false => simpa [MonitorThread.advance, hpc, hstop] using hstage

/-- What every step keeps. -/
structure Kept (cls : PathClassConfig) (iface : Bytes) (t : MonitorSocket) : Prop where
  accounted : t.Accounted cls iface
  stage : t.Stage
  iface : t.thread.iface = iface

/-- The steps in which the thread calls the library. -/
theorem advance_of_ne (hopen : t.thread.pc ≠ .openCtrl) (hattach : t.thread.pc ≠ .attach)
    (hpoll : t.thread.pc ≠ .poll) (hdetach : t.thread.pc ≠ .detach) (env : SocketEnv) :
    t.advance pid ctrlPath env = { t with thread := (t.thread.advance {}).1 } := by
  unfold MonitorSocket.advance
  split <;> first | contradiction | rfl

theorem Kept.advance (h : t.Kept cls iface) (pid : Nat) (ctrlPath : Bytes) (env : SocketEnv) :
    (t.advance pid ctrlPath env).Accounted cls iface ∧ (t.advance pid ctrlPath env).Stage := by
  by_cases hopen : t.thread.pc = .openCtrl
  · simp only [MonitorSocket.advance, hopen]
    exact ⟨h.accounted.openStep hopen env, Stage.openStep hopen env⟩
  by_cases hattach : t.thread.pc = .attach
  · simp only [MonitorSocket.advance, hattach]
    exact attachStep_keeps h.accounted h.stage hattach env
  by_cases hpoll : t.thread.pc = .poll
  · simp only [MonitorSocket.advance, hpoll]
    exact pollStep_keeps h.accounted h.stage h.iface hpoll env
  by_cases hdetach : t.thread.pc = .detach
  · simp only [MonitorSocket.advance, hdetach]
    exact detachStep_keeps h.accounted h.stage hdetach env
  rw [advance_of_ne hopen hattach hpoll hdetach]
  have hacc := h.accounted
  refine ⟨⟨hacc.arrived, hacc.ignored, hacc.skipped, hacc.confirmed, ?_⟩,
    h.stage.advance_other {} hopen hattach hpoll hdetach⟩
  exact (advance_fsm {} hpoll).trans hacc.machine

theorem Kept.arrive (h : t.Kept cls iface) (msg : Bytes) : (t.arrive msg).Kept cls iface := by
  unfold MonitorSocket.arrive
  split
  · have hacc := h.accounted
    refine ⟨⟨?_, hacc.ignored, hacc.skipped, hacc.confirmed, hacc.machine⟩, h.stage, h.iface⟩
    simp only [hacc.arrived, List.append_assoc]
    rfl
  · exact h

theorem Kept.step (h : t.Kept cls iface) (e : SocketEvent) :
    (t.step pid ctrlPath e).Kept cls iface := by
  cases e with
  | arrive msg => exact h.arrive msg
  | start env =>
    obtain ⟨hacc, hstage⟩ := h.advance pid ctrlPath env
    refine ⟨hacc, hstage, ?_⟩
    rcases step_thread pid ctrlPath t (.start env) with hsame | ⟨f, hstep⟩
    · rw [hsame, h.iface]
    · rw [hstep, ← h.iface]
      cases f with
      | start env => exact advance_iface _ env
      | stop => exact stop_iface _
  | stop =>
    have hacc := h.accounted
    refine ⟨⟨hacc.arrived, hacc.ignored, hacc.skipped, hacc.confirmed, ?_⟩, ?_, ?_⟩
    · exact (stop_fsm t.thread).trans hacc.machine
    · simpa [Stage, MonitorSocket.step] using h.stage
    · exact (stop_iface t.thread).trans h.iface

theorem kept_constructed (cls : PathClassConfig) (iface : Bytes) (sys : CtrlSystem) :
    (constructed cls iface sys).Kept cls iface :=
  ⟨⟨rfl, by simp [constructed], by simp [constructed], by simp [constructed], rfl⟩, rfl, rfl⟩

/-- In every state of every run, every message of the connection is accounted for. -/
theorem accounted_throughout (pid : Nat) (ctrlPath : Bytes) (cls : PathClassConfig) (iface : Bytes)
    (sys : CtrlSystem) (events : List SocketEvent) :
    Throughout (step pid ctrlPath) (Accounted cls iface) (constructed cls iface sys) events :=
  (throughout_of_invariant (fun _ e h => h.step e) (kept_constructed cls iface sys) events).mono
    fun _ h => h.accounted

/-- An event that comes with the confirmation is dropped if it comes in front of it, and handled
if it comes behind; one that is at the socket when `poll` fails is lost. -/
example :
    let up := Bytes.ascii "<3>CTRL-EVENT-CONNECTED - Connection to 02:00:00:00:01:00 completed"
    let down := Bytes.ascii "<3>CTRL-EVENT-DISCONNECTED bssid=02:00:00:00:01:00 reason=3"
    let path := Bytes.ascii "/var/run/wpa_supplicant/eth0.100"
    let cls := pathPolicies.head (by decide)
    let t := run (step 417 path) (constructed cls (Bytes.ascii "eth0.100") {})
      [.start {}, .start {}, .start {}, .arrive down, .arrive okReply, .arrive up, .start {},
       .start {}, .start {}, .start {},
       .start { polled := .ready ⟨true, false, false, false, rfl⟩ }, .arrive down,
       .start {}, .start { polled := .error false }, .start {}, .start {}]
    t.connection.ignored = [down] ∧ t.connection.handled = [up] ∧ t.connection.skipped = [down] ∧
      t.thread.fsm.state = .pathUp := by
  decide

/-! ## What the monitor holds -/

/-- A socket and a `struct wpa_ctrl` for the open control interface, and nothing else. -/
structure HoldsOnly (base : CtrlSystem) (t : MonitorSocket) : Prop where
  sockets : t.sys.sockets = base.sockets + t.ctrl.toList.length
  allocs : t.sys.allocs = base.allocs + t.ctrl.toList.length

/-- No name is left of the connections that are closed, or were not made. -/
def NamesGone (base : CtrlSystem) (t : MonitorSocket) : Prop :=
  t.sys.files ⊆ base.files ++ t.ctrl.toList.map (·.localPath)

theorem sys_attachStep (t : MonitorSocket) (env : SocketEnv) :
    ((t.attachStep env).sys = t.sys ∧ (t.attachStep env).ctrl = t.ctrl) ∨
      ((t.attachStep env).sys = t.close.sys ∧ (t.attachStep env).ctrl = none) := by
  unfold attachStep
  cases requestTurn attachReplyLen (t.requestEnv env) t.request with
  | goesOn point => exact .inl ⟨rfl, rfl⟩
  | returns res reply =>
    by_cases hzero : attachResult res reply = 0
    · simp [hzero]
    · simp [hzero, close]

theorem sys_detachStep (t : MonitorSocket) (env : SocketEnv) :
    ((t.detachStep env).sys = t.sys ∧ (t.detachStep env).ctrl = t.ctrl) ∨
      ((t.detachStep env).sys = t.close.sys ∧ (t.detachStep env).ctrl = none) := by
  unfold detachStep
  split
  · exact .inl ⟨rfl, rfl⟩
  · exact .inr ⟨rfl, rfl⟩

/-- A step leaves the resources alone, closes the connection, or opens one. -/
theorem sys_step (hstage : t.Stage) (pid : Nat) (ctrlPath : Bytes) (e : SocketEvent) :
    ((t.step pid ctrlPath e).sys = t.sys ∧ (t.step pid ctrlPath e).ctrl = t.ctrl) ∨
      ((t.step pid ctrlPath e).sys = t.close.sys ∧ (t.step pid ctrlPath e).ctrl = none) ∨
      (t.ctrl = none ∧ ∃ env : OpenEnv,
        (t.step pid ctrlPath e).sys = (wpaCtrlOpen pid ctrlPath env t.sys).2 ∧
        (t.step pid ctrlPath e).ctrl = (wpaCtrlOpen pid ctrlPath env t.sys).1) := by
  cases e with
  | arrive msg =>
    refine .inl ?_
    simp only [MonitorSocket.step, MonitorSocket.arrive]
    split <;> exact ⟨rfl, rfl⟩
  | stop => exact .inl ⟨rfl, rfl⟩
  | start env =>
    simp only [MonitorSocket.step, MonitorSocket.advance]
    split
    · next hpc =>
      rw [Stage, hpc] at hstage
      exact .inr (.inr ⟨hstage, env.opening, rfl, rfl⟩)
    · exact (t.sys_attachStep env).imp_right .inl
    · exact .inl ⟨rfl, rfl⟩
    · exact (t.sys_detachStep env).imp_right .inl
    · exact .inl ⟨rfl, rfl⟩

theorem HoldsOnly.step {base : CtrlSystem} (h : t.HoldsOnly base) (hstage : t.Stage)
    (e : SocketEvent) : (t.step pid ctrlPath e).HoldsOnly base := by
  rcases sys_step hstage pid ctrlPath e with ⟨hsys, hctrl⟩ | ⟨hsys, hctrl⟩ |
    ⟨hnone, env, hsys, hctrl⟩
  · exact ⟨by rw [hsys, hctrl, h.sockets], by rw [hsys, hctrl, h.allocs]⟩
  · have hsockets := h.sockets
    have hallocs := h.allocs
    cases hopen : t.ctrl with
    | none =>
      rw [hopen] at hsockets hallocs
      refine ⟨?_, ?_⟩ <;> simpa [hsys, hctrl, close, hopen]
    | some ctrl =>
      rw [hopen] at hsockets hallocs
      refine ⟨?_, ?_⟩ <;>
        simp_all [close, wpaCtrlClose, closeAndFree, unlinkPath]
  · have hsockets := h.sockets
    have hallocs := h.allocs
    rw [hnone] at hsockets hallocs
    obtain ⟨files, -, counter, hopen | ⟨path, ⟨-, hopen⟩ | ⟨dest, -, hopen⟩⟩⟩ :=
      wpaCtrlOpen2_cases pid ctrlPath none env t.sys
    · exact ⟨by simpa [hsys, hctrl, wpaCtrlOpen, hopen], by simpa [hsys, hctrl, wpaCtrlOpen, hopen]⟩
    · exact ⟨by simpa [hsys, hctrl, wpaCtrlOpen, hopen], by simpa [hsys, hctrl, wpaCtrlOpen, hopen]⟩
    · constructor
      · simpa [hsys, hctrl, wpaCtrlOpen, hopen] using hsockets
      · simpa [hsys, hctrl, wpaCtrlOpen, hopen] using hallocs

theorem NamesGone.step {base : CtrlSystem} (h : t.NamesGone base) (hstage : t.Stage)
    (hfits : (destPath ctrlPath).isSome = true) (e : SocketEvent) :
    (t.step pid ctrlPath e).NamesGone base := by
  unfold NamesGone at *
  rcases sys_step hstage pid ctrlPath e with ⟨hsys, hctrl⟩ | ⟨hsys, hctrl⟩ |
    ⟨hnone, env, hsys, hctrl⟩
  · rwa [hsys, hctrl]
  · rw [hsys, hctrl]
    cases hopen : t.ctrl with
    | none => simpa [hopen, close] using h
    | some ctrl =>
      intro f hf
      simp only [hopen, close, wpaCtrlClose, closeAndFree, unlinkPath, List.mem_filter,
        decide_eq_true_eq] at hf
      have hmem := h hf.1
      rw [hopen] at hmem
      simpa [hf.2] using hmem
  · rw [hnone] at h
    rw [hsys, hctrl]
    have hbase : t.sys.files ⊆ base.files := by simpa using h
    obtain ⟨files, hsub, counter, hopen | ⟨path, ⟨hlong, hopen⟩ | ⟨dest, -, hopen⟩⟩⟩ :=
      wpaCtrlOpen2_cases pid ctrlPath none env t.sys
    · simpa [wpaCtrlOpen, hopen] using List.Subset.trans hsub hbase
    · simp [hlong] at hfits
    · simp only [wpaCtrlOpen, hopen, Option.toList_some, List.map_cons, List.map_nil]
      exact List.append_subset.mpr ⟨List.subset_append_of_subset_left _
        (List.Subset.trans hsub hbase), List.subset_append_right _ _⟩

/-- The names of the sockets of a process fit a socket address. -/
theorem length_clientPath_lt (hpid : pid < 2 ^ 31) :
    (clientPath pid 1 none).length < sunPathSize := by
  have hdigits : (Word.decimal pid).length ≤ 10 := by
    unfold Word.decimal
    split
    · decide
    · rw [List.length_map, List.length_reverse, Nat.digits_length_le_iff (by decide)]
      omega
  have hlen : (clientPath pid 1 none).length = 14 + (Word.decimal pid).length + 2 := by
    simp only [clientPath, List.length_append]
    rfl
  rw [hlen, sunPathSize]
  omega

/-- An open that gets as far as its control path leaves the name of its socket if the path does
not fit. -/
theorem open_leaves_name (hlong : destPath ctrlPath = none) (hpid : pid < 2 ^ 31) :
    wpaCtrlOpen pid ctrlPath {} {} =
      (none, { files := [clientPath pid 1 none], counter := 1 }) := by
  simp [wpaCtrlOpen, wpaCtrlOpen2, bindOrReplace, bindSocket, closeAndFree, hlong,
    Nat.not_le_of_lt (length_clientPath_lt hpid)]

theorem holdsOnly_throughout (pid : Nat) (ctrlPath : Bytes) (cls : PathClassConfig)
    (iface : Bytes) (base : CtrlSystem) (events : List SocketEvent) :
    Throughout (step pid ctrlPath) (HoldsOnly base) (constructed cls iface base) events :=
  (throughout_of_invariant (P := fun t => t.Kept cls iface ∧ t.HoldsOnly base)
    (fun _ e h => ⟨h.1.step e, h.2.step h.1.stage e⟩)
    ⟨kept_constructed cls iface base, rfl, rfl⟩ events).mono fun _ h => h.2

theorem namesGone_throughout (hfits : (destPath ctrlPath).isSome = true) (pid : Nat)
    (cls : PathClassConfig) (iface : Bytes) (base : CtrlSystem) (events : List SocketEvent) :
    Throughout (step pid ctrlPath) (NamesGone base) (constructed cls iface base) events := by
  have hfresh : (constructed cls iface base).NamesGone base := by simp [NamesGone, constructed]
  exact (throughout_of_invariant (P := fun t => t.Kept cls iface ∧ t.NamesGone base)
    (fun _ e h => ⟨h.1.step e, h.2.step h.1.stage hfits e⟩)
    ⟨kept_constructed cls iface base, hfresh⟩ events).mono fun _ h => h.2

/-- The monitor gives back its sockets and its memory in every run, and the names of its sockets
in every run exactly when its control path fits a socket address. -/
theorem released_throughout_iff (pid : Nat) (ctrlPath : Bytes) (cls : PathClassConfig)
    (iface : Bytes) (hpid : pid < 2 ^ 31) :
    (∀ (base : CtrlSystem) (events : List SocketEvent),
        Throughout (step pid ctrlPath) (HoldsOnly base) (constructed cls iface base) events) ∧
      ((∀ (base : CtrlSystem) (events : List SocketEvent),
          Throughout (step pid ctrlPath) (NamesGone base) (constructed cls iface base) events) ↔
        (destPath ctrlPath).isSome = true) := by
  refine ⟨holdsOnly_throughout pid ctrlPath cls iface, fun h => ?_,
    fun hfits => namesGone_throughout hfits pid cls iface⟩
  by_contra hlong
  have hlong : destPath ctrlPath = none := by simpa using hlong
  obtain ⟨t, ht⟩ : ∃ t, t = run (step pid ctrlPath) (constructed cls iface {})
    [.start {}, .start {}, .start {}] := ⟨_, rfl⟩
  have hgone : t.NamesGone {} := ht ▸ (h {} [.start {}, .start {}, .start {}]).last
  have hsys : t.sys = (wpaCtrlOpen pid ctrlPath {} {}).2 := by rw [ht]; rfl
  have hctrl : t.ctrl = (wpaCtrlOpen pid ctrlPath {} {}).1 := by rw [ht]; rfl
  rw [NamesGone, hsys, hctrl, open_leaves_name hlong hpid] at hgone
  simp at hgone

theorem released_throughout_vlan :
    let path := Bytes.ascii "/var/run/wpa_supplicant/eth0.100"
    let cls := pathPolicies.head (by decide)
    let iface := Bytes.ascii "eth0.100"
    (∀ (base : CtrlSystem) (events : List SocketEvent),
        Throughout (step 417 path) (HoldsOnly base) (constructed cls iface base) events) ∧
      ((∀ (base : CtrlSystem) (events : List SocketEvent),
          Throughout (step 417 path) (NamesGone base) (constructed cls iface base) events) ↔
        (destPath path).isSome = true) :=
  released_throughout_iff 417 _ _ _ (by decide)

end MonitorSocket
end WifiOffload
