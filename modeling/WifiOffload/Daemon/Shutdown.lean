import WifiOffload.Daemon.Routes
import WifiOffload.Routing.CgroupRemoval

/-!
# Shutdown

The end of `main`: the monitors and the API server are stopped, the endpoints flushed and the
policy cleaned up. Rules, chains and jumps are undone after every run. No step of the shutdown
removes a default route or moves a process out of a class, and a directory with a process in it
cannot be removed; what a run must have undone by itself is `LeftClean`.
-/

namespace WifiOffload

open StateMachine AcquireLog

namespace Daemon

/-- The monitors are stopped and the API server with its thread. -/
def stop (host : Host) (d : Daemon) : Daemon :=
  let stopped := d.server.stop
  let k := { d.kernel with tasks := d.kernel.tasks.filter (·.pid ≠ 0) }
  { d with
    server := stopped.1
    kernel := stopped.2.foldl (applyEffect host .other fun _ => true) k }

/-- The kernel that `main` leaves behind. -/
def shutdown (host : Host) (classes : List PathClassConfig) (d : Daemon) : Kernel :=
  (cleanup host classes (removeEndpoints (d.stop host).kernel)).1

theorem stop_kernel (host : Host) (d : Daemon) : (d.stop host).kernel =
    { d.kernel with tasks := d.kernel.tasks.filter (·.pid ≠ 0) } := by
  have hclose (es : List ConsumerEntry) (k : Kernel) : (es.map fun e => Effect.close e.fd).foldl
      (applyEffect host .other fun _ => true) k = k := by
    induction es with
    | nil => rfl
    | cons e es ih => exact ih
  exact hclose _ _

end Daemon

/-- Nothing that the daemon installs, and no process in a class. -/
structure ShutDownClean (host : Host) (classes : List PathClassConfig) (k : Kernel) : Prop extends
    NoPolicy k where
  no_route : ∀ table, NoneInstalled (k.routes table)
  no_task : ∀ cls ∈ classes, ∀ t ∈ k.tasks, t.dir ≠ host.classDir cls
  no_dir : ∀ cls ∈ classes, host.classDir cls ∉ k.dirs

/-- What a run leaves when it has undone by itself what the shutdown does not undo; `base` are
the directories of before. -/
structure LeftClean (host : Host) (classes : List PathClassConfig) (base : List Dir)
    (r : TracedDaemon) : Prop where
  /-- Every path that came up with a gateway has gone down. -/
  no_route : ∀ table, ¬ Outstanding r.uses table
  /-- Only the API thread can still be in a class. -/
  no_task : ∀ cls ∈ classes, ∀ t ∈ r.daemon.kernel.tasks, t.pid ≠ 0 → t.dir ≠ host.classDir cls
  reachable : ReachableInTurn host base classes (r.daemon.stop host).kernel

variable {host : Host} {classes : List PathClassConfig} {k k' : Kernel}

/-! ## The removal of the directories -/

theorem removeCgroup_congr {cls : PathClassConfig} (hc : k.cgroups = k'.cgroups)
    (ht : k.tasks = k'.tasks) :
    (removeCgroup host k cls).1.cgroups = (removeCgroup host k' cls).1.cgroups := by
  have hdirs : k.dirs = k'.dirs := congrArg (List.map _) hc
  unfold removeCgroup removeDir Kernel.rmdir
  rw [hdirs, ht, hc]
  cases host.realCgroupDir cls k'.dirs with
  | none => exact hc
  | some d =>
    by_cases hd : d ∈ k'.dirs
    · simp only [if_pos hd]
      split_ifs <;> first | exact hc | rfl
    · simp only [if_neg hd]
      exact hc

theorem removeCgroups_congr (hc : k.cgroups = k'.cgroups) (ht : k.tasks = k'.tasks) :
    (removeCgroups host classes k).1.cgroups = (removeCgroups host classes k').1.cgroups := by
  induction classes with
  | nil => exact hc
  | cons cls classes ih =>
    rw [removeCgroups_cons, removeCgroups_cons]
    exact removeCgroup_congr ih (by rw [tasks_removeCgroups, tasks_removeCgroups, ht])

/-! ## The end of a run -/

theorem PartlySetUp.of_sameSetup {s s' : Kernel} (h : PartlySetUp host classes k s)
    (hsame : SameSetup s s') : PartlySetUp host classes k s' where
  cgroups := hsame.cgroups ▸ h.cgroups
  mangle := hsame.mangle ▸ h.mangle
  filter := hsame.filter ▸ h.filter
  fwRules := hsame.fwRules ▸ h.fwRules

namespace Daemon

variable {d : Daemon}

/-- What `cleanup` is given to remove directories from. -/
theorem shutdown_eq (h : PartlySetUp host classes k d.kernel) (hk : NoPolicy k) :
    d.shutdown host classes =
      (removeCgroups host classes { (d.stop host).kernel with
        endpoints := [], mangle := k.mangle, filter := k.filter, fwRules := k.fwRules }).1 := by
  have hsame : SameSetup d.kernel (removeEndpoints (d.stop host).kernel) := by
    rw [stop_kernel]
    exact ⟨rfl, rfl, rfl, rfl⟩
  rw [shutdown, cleanup, (h.of_sameSetup hsame).removeRules hk]
  rfl

/-- Rules, chains and jumps are undone after every run. -/
theorem shutdown_noPolicy (h : PartlySetUp host classes k d.kernel) (hk : NoPolicy k) :
    NoPolicy (d.shutdown host classes) := by
  rw [shutdown_eq h hk, removeCgroups_frame]
  exact ⟨hk.priority_ne, hk.mangle, hk.filter⟩

/-- No default route is removed. -/
theorem shutdown_routes (h : PartlySetUp host classes k d.kernel) (hk : NoPolicy k) :
    (d.shutdown host classes).routes = d.kernel.routes := by
  rw [shutdown_eq h hk, removeCgroups_frame, stop_kernel]

/-- No process is moved. -/
theorem shutdown_tasks (h : PartlySetUp host classes k d.kernel) (hk : NoPolicy k) :
    (d.shutdown host classes).tasks = d.kernel.tasks.filter (·.pid ≠ 0) := by
  rw [shutdown_eq h hk, removeCgroups_frame, stop_kernel]

theorem shutdown_dirs (h : PartlySetUp host classes k d.kernel) (hk : NoPolicy k) :
    (d.shutdown host classes).dirs = (removeCgroups host classes (d.stop host).kernel).1.dirs := by
  rw [shutdown_eq h hk]
  exact congrArg (List.map _) (removeCgroups_congr rfl rfl)

theorem stop_dirs : (d.stop host).kernel.dirs = d.kernel.dirs := by
  rw [stop_kernel]
  rfl

end Daemon

/-- What every run keeps of the start-up, and what it logs. -/
structure RunsOn (host : Host) (classes : List PathClassConfig) (k : Kernel) (r : TracedDaemon) :
    Prop where
  laid : Laid host k.dirs classes
  mem_dirs : ∀ d, d ∈ r.daemon.kernel.dirs ↔ d ∈ k.dirs ∨ ∃ cls ∈ classes, host.classDir cls = d
  partlySetUp : PartlySetUp host classes k r.daemon.kernel
  follows : r.Follows host classes

namespace RunsOn

variable {r : TracedDaemon}

/-- Without processes in the classes, all directories go exactly when each can be reached. -/
theorem no_dir_iff (h : RunsOn host classes k r) (hk : CleanKernel host classes k)
    (hclosed : DirsClosed k.dirs)
    (htask : ∀ cls ∈ classes, ∀ t ∈ r.daemon.kernel.tasks, t.pid ≠ 0 → t.dir ≠ host.classDir cls) :
    (∀ cls ∈ classes, host.classDir cls ∉ (r.daemon.shutdown host classes).dirs) ↔
      ReachableInTurn host k.dirs classes (r.daemon.stop host).kernel := by
  have hdirs : ∀ d ∈ (r.daemon.stop host).kernel.dirs,
      d ∈ k.dirs ∨ ∃ cls ∈ classes, host.classDir cls = d := by
    intro d hd
    rw [Daemon.stop_dirs] at hd
    exact (h.mem_dirs d).mp hd
  have htask' : ∀ cls ∈ classes, ∀ t ∈ (r.daemon.stop host).kernel.tasks,
      t.dir ≠ host.classDir cls := by
    intro cls hcls t ht
    rw [Daemon.stop_kernel, List.mem_filter, decide_eq_true_eq] at ht
    exact htask cls hcls t ht.1 ht.2
  rw [Daemon.shutdown_dirs h.partlySetUp hk.toNoPolicy,
    ← removeCgroups_subset_iff hclosed h.laid hdirs htask']
  constructor
  · intro hno d hd
    refine (hdirs d (dirs_removeCgroups_subset hd)).resolve_right ?_
    rintro ⟨cls, hcls, rfl⟩
    exact hno cls hcls hd
  · exact fun hsub cls hcls hmem => hk.not_mem_dirs cls hcls (hsub hmem)

/-- A shutdown is clean exactly when the run has undone by itself what no step of the shutdown
undoes. -/
theorem shutDownClean_iff (h : RunsOn host classes k r) (hk : CleanKernel host classes k)
    (hclosed : DirsClosed k.dirs) :
    ShutDownClean host classes (r.daemon.shutdown host classes) ↔
      LeftClean host classes k.dirs r := by
  have hroutes := Daemon.shutdown_routes h.partlySetUp hk.toNoPolicy
  have htasks := Daemon.shutdown_tasks h.partlySetUp hk.toNoPolicy
  have hnone := h.follows.routes.noneInstalled_iff
  constructor
  · intro hclean
    have hnoTask : ∀ cls ∈ classes, ∀ t ∈ r.daemon.kernel.tasks, t.pid ≠ 0 →
        t.dir ≠ host.classDir cls := by
      intro cls hcls t ht hpid
      exact hclean.no_task cls hcls t (htasks ▸ List.mem_filter.mpr ⟨ht, decide_eq_true hpid⟩)
    refine ⟨fun table => (hnone table).mp ?_, hnoTask,
      (h.no_dir_iff hk hclosed hnoTask).mp hclean.no_dir⟩
    rw [← hroutes]
    exact hclean.no_route table
  · intro hleft
    refine ⟨Daemon.shutdown_noPolicy h.partlySetUp hk.toNoPolicy, fun table => ?_, ?_,
      (h.no_dir_iff hk hclosed hleft.no_task).mpr hleft.reachable⟩
    · rw [hroutes]
      exact (hnone table).mpr (hleft.no_route table)
    · intro cls hcls t ht
      rw [htasks, List.mem_filter, decide_eq_true_eq] at ht
      exact hleft.no_task cls hcls t ht.1 ht.2

end RunsOn

/-- The daemon of a run, after a start-up that went through. -/
def runFrom (host : Host) (faults : StartupFaults) (classes : List PathClassConfig) (k : Kernel)
    (events : List Daemon.Event) : TracedDaemon :=
  run (TracedDaemon.feed host classes)
    ⟨.start classes (startUp host faults classes k).kernel, []⟩ events

theorem runFrom_runsOn {faults : StartupFaults} (hacc : Accepted classes)
    (hk : CleanKernel host classes k) (hroutes : ∀ table, NoneInstalled (k.routes table))
    (hok : (startUp host faults classes k).failed = none) (events : List Daemon.Event) :
    RunsOn host classes k (runFrom host faults classes k events) := by
  rcases startUp_cases faults hk with ⟨hfail, -⟩ | ⟨stage, s, hfail, -⟩ | ⟨-, hhier, hpart, hstate⟩
  · simp [hfail] at hok
  · simp [hfail] at hok
  obtain ⟨mangle, filter, fwRules, endpoints, hkernel⟩ := hstate
  obtain ⟨cgroups, hframe⟩ := createCgroupHierarchy_frame host faults.cgroup classes k
  obtain ⟨hlaid, hmem⟩ := laid_of_eachFrom_ok hhier
  have hsame : SameSetup (startUp host faults classes k).kernel
      (runFrom host faults classes k events).daemon.kernel := by
    rw [runFrom, TracedDaemon.daemon_run]
    exact Daemon.run_sameSetup (.start classes _) events
  refine ⟨hlaid, fun d => ?_, hpart.of_sameSetup hsame, ?_⟩
  · rw [Kernel.dirs, hsame.cgroups, hkernel]
    exact hmem d
  · refine (TracedDaemon.follows_throughout hacc.wellFormed.tables_nodup ?_ events).last
    rw [hkernel, hframe]
    exact hroutes

/-- In a configuration in which no class is found through the directory of a later one, open
paths and processes are all that a run can leave. -/
theorem leftClean_iff_of_pairwise {faults : StartupFaults} (hacc : Accepted classes)
    (hk : CleanKernel host classes k) (hroutes : ∀ table, NoneInstalled (k.routes table))
    (hok : (startUp host faults classes k).failed = none) (events : List Daemon.Event)
    (hforward : classes.Pairwise fun cls later => host.classDir later ∉ host.parentVisits cls) :
    let r := runFrom host faults classes k events
    LeftClean host classes k.dirs r ↔ (∀ table, ¬ Outstanding r.uses table) ∧
      ∀ cls ∈ classes, ∀ t ∈ r.daemon.kernel.tasks, t.pid ≠ 0 → t.dir ≠ host.classDir cls := by
  intro r
  have hruns := runFrom_runsOn hacc hk hroutes hok events
  refine ⟨fun h => ⟨h.no_route, h.no_task⟩, fun h => ⟨h.1, h.2, ?_⟩⟩
  refine reachableInTurn_of_pairwise hruns.laid (fun d hd => ?_) (fun cls hcls => ?_) hforward
  · rw [Daemon.stop_dirs, hruns.mem_dirs]
    exact .inl hd
  · rw [Daemon.stop_dirs, hruns.mem_dirs]
    exact .inr ⟨cls, hcls, rfl⟩

/-- No class of the shipped configuration is found through the directory of another. -/
example : pathPolicies.Pairwise fun cls later =>
    vlanHost.classDir later ∉ vlanHost.parentVisits cls := by decide

/-- After every run of an accepted configuration from a clean kernel, the shutdown is clean
exactly when every path that came up has gone down, no process is left in a class, and the
removal of the directories does not cut off a path it still needs. -/
theorem shutdown_clean_iff (host : Host) (faults : StartupFaults) (classes : List PathClassConfig)
    (k : Kernel) (events : List Daemon.Event) (hacc : Accepted classes)
    (hk : CleanKernel host classes k) (hroutes : ∀ table, NoneInstalled (k.routes table))
    (hclosed : DirsClosed k.dirs) (hok : (startUp host faults classes k).failed = none) :
    let r := runFrom host faults classes k events
    ShutDownClean host classes (r.daemon.shutdown host classes) ↔
      LeftClean host classes k.dirs r := by
  intro r
  exact (runFrom_runsOn hacc hk hroutes hok events).shutDownClean_iff hk hclosed

/-- A consumer that registers and hangs up, and a path that comes up and goes down. -/
def settledRun : List Daemon.Event :=
  [.connect 7, .message 7 (registerMsg 100 "multipath") {},
   .wpa 0 { type := .connected, iface := [] } { gateway := 0x0164a8c0 },
   .wpa 0 { type := .disconnected, iface := [] } {}, .disconnect 7 {}]

theorem bootedKernel_closed : DirsClosed bootedKernel.dirs := ⟨by decide, by decide⟩

theorem shutdown_clean_settledRun :
    let r := runFrom vlanHost {} pathPolicies bootedKernel settledRun
    (startUp vlanHost {} pathPolicies bootedKernel).failed = none ∧
      r.uses = [.acquire 100, .release 100] ∧
      (ShutDownClean vlanHost pathPolicies (r.daemon.shutdown vlanHost pathPolicies) ↔
        LeftClean vlanHost pathPolicies bootedKernel.dirs r) := by
  have hok : (startUp vlanHost {} pathPolicies bootedKernel).failed = none := by decide
  exact ⟨hok, by decide, shutdown_clean_iff _ _ _ _ _ pathPolicies_accepted bootedKernel_clean
    (by intro table r hr; cases hr) bootedKernel_closed hok⟩

/-- A consumer that is still registered keeps its process in the cgroup of `multipath`, so that
the directory cannot be removed. -/
theorem shutdown_leaves_consumer :
    ¬ ∀ (host : Host) (classes : List PathClassConfig) (k : Kernel) (events : List Daemon.Event),
        Accepted classes → CleanKernel host classes k → (∀ table, NoneInstalled (k.routes table)) →
        DirsClosed k.dirs → (startUp host {} classes k).failed = none →
        ShutDownClean host classes
          ((runFrom host {} classes k events).daemon.shutdown host classes) := by
  intro h
  have hclean := h vlanHost pathPolicies bootedKernel
    [.connect 7, .message 7 (registerMsg 100 "multipath") {}] pathPolicies_accepted
    bootedKernel_clean (by intro table r hr; cases hr) bootedKernel_closed (by decide)
  exact absurd hclean.no_dir (by decide)

/-- The default route of a path that is up stays. -/
example :
    let r := runFrom vlanHost {} pathPolicies bootedKernel
      [.wpa 0 { type := .connected, iface := [] } { gateway := 0x0164a8c0 }]
    (r.daemon.shutdown vlanHost pathPolicies).routes 100 = [⟨4, 0x0164a8c0, true⟩] := by decide

end WifiOffload
