import WifiOffload.Api.Server
import WifiOffload.Daemon.Startup
import WifiOffload.Fsm.PathStateFsm
import WifiOffload.Library.StateMachine
import WifiOffload.Routing.DefaultRoute

/-!
# The daemon at work

The event loop of `main`: one path state machine for a class with its three callbacks, and the
consumer API. Path events install and remove default routes and add endpoints again; consumers
are moved between cgroups. Cgroup directories, chains and policy rules stay as the start-up left
them. Every kernel request is made without faults.
-/

namespace WifiOffload

/-- What the system answers while an event is handled. -/
structure Answers where
  /-- `queryGatewayForIface`. -/
  gateway : UInt32 := 0
  /-- The connections that a broadcast can send to. -/
  sent : Nat → Bool := fun _ => true
  /-- The processes that exist. -/
  running : Int32 → Bool := fun _ => true

/-- The thread that writes to a `tasks` file. Among the tasks the API thread has the id 0; the
threads of the state machines are not followed, as none of them outlives the event loop. -/
inductive Writer where
  | apiThread | other
  deriving DecidableEq, Repr

/-- A write to the `tasks` file of a directory: 0 stands for the writing thread. -/
def writeTasks (writer : Writer) (running : Int32 → Bool) (pid : Int32) (d : Dir) (k : Kernel) :
    Except Errno Kernel :=
  if pid < 0 then .error .einval
  else if pid = 0 then .ok (if writer = .apiThread then k.moveTask 0 d else k)
  else if running pid then .ok (k.moveTask pid.toInt d)
  else .error .esrch

/-- The directory of the file `cgroupPath + "/tasks"`, if it can be opened. -/
def tasksDir (host : Host) (k : Kernel) (cgroupPath : Bytes) : Option Dir :=
  if 0 ∈ cgroupPath then none else host.canonical k.dirs (FsPath.parse cgroupPath)

/-- The directory of `kCgroupRoot`. -/
def kCgroupRootDir : Bytes := Bytes.ascii "/sys/fs/cgroup/net_cls"

/-- `f << pid` on a `tasks` file. -/
def writePid (host : Host) (writer : Writer) (running : Int32 → Bool) (cgroupPath : Bytes)
    (pid : Int32) (k : Kernel) : Kernel :=
  match tasksDir host k cgroupPath with
  | none => k
  | some d =>
    match writeTasks writer running pid d k with
    | .ok k' => k'
    | .error _ => k

def applyEffect (host : Host) (writer : Writer) (running : Int32 → Bool) (k : Kernel) :
    Effect → Kernel
  | .assign cls pid => writePid host writer running cls.cgroupPath pid k
  | .release pid => writePid host writer running kCgroupRootDir pid k
  | .send _ _ | .close _ => k

/-- Only processes are moved. -/
theorem applyEffect_frame (host : Host) (writer : Writer) (running : Int32 → Bool) (k : Kernel)
    (e : Effect) : ∃ tasks, applyEffect host writer running k e = { k with tasks } := by
  have hwrite (cgroupPath : Bytes) (pid : Int32) :
      ∃ tasks, writePid host writer running cgroupPath pid k = { k with tasks } := by
    unfold writePid writeTasks
    split
    · exact ⟨k.tasks, rfl⟩
    · split
      · next k' hok =>
        split at hok
        · cases hok
        split at hok
        · rw [← Except.ok.inj hok]
          split
          · exact ⟨_, rfl⟩
          · exact ⟨k.tasks, rfl⟩
        split at hok
        · rw [← Except.ok.inj hok]
          exact ⟨_, rfl⟩
        · cases hok
      · exact ⟨k.tasks, rfl⟩
  cases e with
  | assign cls pid => exact hwrite _ _
  | release pid => exact hwrite _ _
  | send | close => exact ⟨k.tasks, rfl⟩

/-- The interface that the monitor of a class watches. -/
def PathClassConfig.wifiIface (cls : PathClassConfig) : Bytes := cls.interfaces.headD []

structure Daemon where
  kernel : Kernel
  server : ConsumerApiServer
  fsms : List PathStateFsm

namespace Daemon

/-- `main` at the start of its event loop. -/
def start (classes : List PathClassConfig) (k : Kernel) : Daemon where
  kernel := k
  server := .ofClasses classes
  fsms := (classes.filter (·.interfaces ≠ [])).map fun cls => { config := cls }

/-- The callbacks that `main` gives to the machine of a class. -/
def onCallback (host : Host) (classes : List PathClassConfig) (cls : PathClassConfig)
    (answers : Answers) (d : Kernel × ConsumerApiServer) : Callback → Kernel × ConsumerApiServer
  | .onPathUp iface table =>
    let k := if answers.gateway ≠ 0 then
        (addDefaultRoute host none iface answers.gateway table d.1).state
      else d.1
    (if cls.mptcpEnabled then (addEndpoints host {} classes k).state else k, d.2)
  | .onPathDown iface table => ((removeDefaultRoute host none iface table d.1).state, d.2)
  | .onStateChanged _ next iface rssi =>
    let r := d.2.broadcastPathEvent cls.id next iface (Int32.ofInt rssi) answers.sent
    (r.2.foldl (applyEffect host .other answers.running) d.1,
      r.1.updateCurrentState cls.id next)

inductive Event where
  /-- The monitor of the `i`-th machine reports an event, always for its own interface. -/
  | wpa (i : Nat) (ev : WpaEvent) (answers : Answers)
  | connect (fd : Nat)
  | message (fd : Nat) (msg : ApiMsg) (answers : Answers)
  | disconnect (fd : Nat) (answers : Answers)
  /-- A process ends. -/
  | exit (pid : Int)

/-- An event of the API thread. -/
def handleApi (host : Host) (answers : Answers) (d : Daemon) (e : ConsumerApiServer.Event) :
    Daemon :=
  { d with
    server := (d.server.step e).1
    kernel := (d.server.step e).2.foldl (applyEffect host .apiThread answers.running) d.kernel }

def step (host : Host) (classes : List PathClassConfig) (d : Daemon) : Event → Daemon
  | .wpa i ev answers =>
    match d.fsms[i]? with
    | none => d
    | some m =>
      let r := m.onWpaEvent { ev with iface := m.config.wifiIface }
      let done := r.2.foldl (onCallback host classes m.config answers) (d.kernel, d.server)
      { kernel := done.1, server := done.2, fsms := d.fsms.set i r.1 }
  | .connect fd => d.handleApi host {} (.connect fd)
  | .message fd msg answers => d.handleApi host answers (.message fd msg)
  | .disconnect fd answers => d.handleApi host answers (.disconnect fd)
  | .exit pid =>
    { d with kernel := { d.kernel with tasks := d.kernel.tasks.filter (·.pid ≠ pid) } }

end Daemon

/-! ## What stays as the start-up left it -/

/-- Cgroup directories, tables and policy rules are the same. -/
structure SameSetup (k k' : Kernel) : Prop where
  cgroups : k'.cgroups = k.cgroups
  mangle : k'.mangle = k.mangle
  filter : k'.filter = k.filter
  fwRules : k'.fwRules = k.fwRules

namespace SameSetup

variable {k k' k'' : Kernel}

theorem refl (k : Kernel) : SameSetup k k := ⟨rfl, rfl, rfl, rfl⟩

theorem trans (h : SameSetup k k') (h' : SameSetup k' k'') : SameSetup k k'' :=
  ⟨h'.cgroups.trans h.cgroups, h'.mangle.trans h.mangle, h'.filter.trans h.filter,
    h'.fwRules.trans h.fwRules⟩

/-- A loop of steps that keep the set-up keeps it. -/
theorem foldl {α : Type} {f : Kernel → α → Kernel} (hf : ∀ k x, SameSetup k (f k x)) (xs : List α)
    (k : Kernel) : SameSetup k (xs.foldl f k) := by
  induction xs generalizing k with
  | nil => exact refl k
  | cons x xs ih => exact (hf k x).trans (ih (f k x))

variable {host : Host} {classes : List PathClassConfig} {iface : Bytes} {gwAddr table : UInt32}

theorem addDefaultRoute : SameSetup k (addDefaultRoute host none iface gwAddr table k).state := by
  by_cases hif : host.ifindex iface = 0
  · rw [addDefaultRoute_unknown hif]
    exact refl k
  · rw [addDefaultRoute_known hif]
    exact ⟨rfl, rfl, rfl, rfl⟩

theorem removeDefaultRoute : SameSetup k (removeDefaultRoute host none iface table k).state := by
  by_cases hif : host.ifindex iface = 0
  · rw [removeDefaultRoute_unknown hif]
    exact refl k
  · rw [removeDefaultRoute_known hif]
    exact ⟨rfl, rfl, rfl, rfl⟩

theorem addEndpoints {faults : EndpointFaults} :
    SameSetup k (addEndpoints host faults classes k).state := by
  obtain ⟨added, hstate, -⟩ := addEndpoints_state host faults classes k
  rw [hstate]
  exact ⟨rfl, rfl, rfl, rfl⟩

theorem applyEffect (host : Host) (writer : Writer) (running : Int32 → Bool) (k : Kernel)
    (e : Effect) : SameSetup k (applyEffect host writer running k e) := by
  obtain ⟨tasks, heq⟩ := applyEffect_frame host writer running k e
  rw [heq]
  exact ⟨rfl, rfl, rfl, rfl⟩

theorem onCallback (host : Host) (classes : List PathClassConfig) (cls : PathClassConfig)
    (answers : Answers) (d : Kernel × ConsumerApiServer) (call : Callback) :
    SameSetup d.1 (Daemon.onCallback host classes cls answers d call).1 := by
  cases call with
  | onPathUp iface table =>
    have hroute : SameSetup d.1 (if answers.gateway ≠ 0 then
        (WifiOffload.addDefaultRoute host none iface answers.gateway table d.1).state
      else d.1) := by
      split
      · exact addDefaultRoute
      · exact refl d.1
    simp only [Daemon.onCallback]
    split
    · exact hroute.trans addEndpoints
    · exact hroute
  | onPathDown iface table => exact removeDefaultRoute
  | onStateChanged previous next iface rssi => exact foldl (applyEffect host _ _) _ _

end SameSetup

namespace Daemon

variable {host : Host} {classes : List PathClassConfig}

theorem step_sameSetup (d : Daemon) (e : Event) :
    SameSetup d.kernel (d.step host classes e).kernel := by
  have hcalls (cls : PathClassConfig) (answers : Answers) (calls : List Callback)
      (p : Kernel × ConsumerApiServer) :
      SameSetup p.1 (calls.foldl (onCallback host classes cls answers) p).1 := by
    induction calls generalizing p with
    | nil => exact .refl p.1
    | cons call calls ih =>
      exact (SameSetup.onCallback host classes cls answers p call).trans (ih _)
  have hapi (answers : Answers) (e : ConsumerApiServer.Event) :
      SameSetup d.kernel (d.handleApi host answers e).kernel :=
    SameSetup.foldl (SameSetup.applyEffect host _ _) _ _
  cases e with
  | wpa i ev answers =>
    simp only [Daemon.step]
    cases d.fsms[i]? with
    | none => exact .refl d.kernel
    | some m => exact hcalls m.config answers _ (d.kernel, d.server)
  | connect fd => exact hapi _ _
  | message fd msg answers => exact hapi _ _
  | disconnect fd answers => exact hapi _ _
  | exit pid => exact ⟨rfl, rfl, rfl, rfl⟩

/-- No run touches the directories, the chains or the policy rules. -/
theorem run_sameSetup (d : Daemon) (events : List Event) :
    SameSetup d.kernel (StateMachine.run (step host classes) d events).kernel :=
  (StateMachine.throughout_of_invariant (P := fun d' : Daemon => SameSetup d.kernel d'.kernel)
    (fun d' e h => h.trans (step_sameSetup d' e)) (.refl d.kernel) events).last

end Daemon
end WifiOffload
