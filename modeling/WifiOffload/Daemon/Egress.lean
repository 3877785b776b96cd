import WifiOffload.Daemon.Shutdown
import WifiOffload.Routing.Egress

/-!
# The daemon and the traffic

Where packets leave along the runs of the daemon, and after its end: those of a class through the
interface of the class while its path is up, if the rules of the strict classes let them pass on the
device of unmarked traffic; those of no class as if the daemon did not run; and all of them as
before once it is shut down, whatever it leaves installed.
-/

namespace WifiOffload

open StateMachine AcquireLog

/-- The kernel before the start-up: no cgroup of a class, no chain and no policy rule, no installed
route and no default route at all in the table of a class or in `local`, and tables that let every
packet pass. -/
structure Untouched (foreign : Foreign) (host : Host) (classes : List PathClassConfig)
    (k : Kernel) : Prop where
  cgroups : NoClassCgroups host k classes
  fwRules : k.fwRules = []
  mangle : k.mangle.Free kNetserviceChain
  filter : k.filter.Free kIsoChain
  routes : ∀ table, NoneInstalled (k.routes table)
  class_routes : ∀ cls ∈ classes, k.routes cls.routingTable = []
  local_routes : k.routes rtTableLocal = []
  mangle_passes : ∀ p, ∃ q, k.mangle.traverseOutput foreign p = .passed q ∧ q.classid = p.classid
  filter_passes : ∀ p, k.filter.traverseOutput foreign p = .passed p

instance (host : Host) : DecidableRel (KeptApart host) :=
  fun _ _ => inferInstanceAs (Decidable (_ ∧ ¬ (_ ∧ _)))

variable {foreign : Foreign} {names : UInt32 → Bytes} {host : Host} {faults : StartupFaults}
  {classes : List PathClassConfig} {k s : Kernel} {C : PathClassConfig}

/-! ## What a start-up leaves -/

/-- A start-up goes through with its set-up of the routing; endpoints come on top. -/
theorem startUp_ok (hok : (startUp host faults classes k).failed = none) :
    (setUpRouting host faults.toSetupFaults classes k).error = none ∧
      ∃ endpoints, (startUp host faults classes k).kernel =
        { (setUpRouting host faults.toSetupFaults classes k).state with endpoints } := by
  unfold startUp at hok ⊢
  unfold setUpRouting
  rcases h₁ : createCgroupHierarchy host faults.cgroup classes k with ⟨k₁, _ | e₁⟩
  case some => simp [h₁] at hok
  rcases h₂ : addIptablesMarkRules faults.mark classes k₁ with ⟨k₂, _ | e₂⟩
  case some => simp [h₁, h₂, giveUp] at hok
  rcases h₃ : addIpRules faults.rule classes k₂ with ⟨k₃, _ | e₃⟩
  case some => simp [h₁, h₂, h₃, giveUp] at hok
  rcases h₄ : addDropRules faults.drop classes k₃ with ⟨k₄, _ | e₄⟩
  case some => simp [h₁, h₂, h₃, h₄, giveUp] at hok
  rcases h₅ : addEndpoints host faults.endpoints classes k₄ with ⟨k₅, _ | e₅⟩
  case some => simp [h₁, h₂, h₃, h₄, h₅, giveUp] at hok
  obtain ⟨added, hstate, -⟩ := addEndpoints_state host faults.endpoints classes k₄
  rw [h₅] at hstate
  simp only [h₁, h₂, h₃, h₄, h₅, Attempt.andThen] at hok ⊢
  cases hapi : faults.apiServer with
  | true => simp [hapi, giveUp] at hok
  | false => exact ⟨trivial, k₄.endpoints ++ added, hstate⟩

/-- The steps behind the cgroup hierarchy keep to the tables and the policy rules. -/
theorem setUpRouting_hierarchy {faults : SetupFaults}
    (hok : (setUpRouting host faults classes k).error = none) :
    (createCgroupHierarchy host faults.cgroup classes k).error = none ∧
      ∃ mangle filter fwRules, (setUpRouting host faults classes k).state =
        { (createCgroupHierarchy host faults.cgroup classes k).state with
          mangle, filter, fwRules } := by
  unfold setUpRouting at hok ⊢
  simp only [Attempt.andThen_error_eq_none] at hok
  obtain ⟨hok₁, hok₂, hok₃, hok₄⟩ := hok
  rw [Attempt.andThen_of_ok hok₁, Attempt.andThen_of_ok hok₂, Attempt.andThen_of_ok hok₃,
    addDropRules_ok hok₄]
  obtain ⟨added, hstate, -⟩ := addIpRules_state faults.rule classes
    (addIptablesMarkRules faults.mark classes
      (createCgroupHierarchy host faults.cgroup classes k).state).state
  have hmark := installInto_ok hok₂
  rw [← addIptablesMarkRules] at hmark
  rw [hstate, hmark]
  refine ⟨hok₁, ?_⟩
  split
  · exact ⟨_, _, _, rfl⟩
  · exact ⟨_, _, _, rfl⟩

/-- What a set-up made of the tables and rules stays as it is along a run. -/
theorem RoutingSetUp.of_sameSetup {k' : Kernel} (h : RoutingSetUp classes k s)
    (hsame : SameSetup s k') : RoutingSetUp classes k k' where
  mangle := hsame.mangle.trans h.mangle
  filter := hsame.filter.trans h.filter
  mem_fwRules r := by rw [hsame.fwRules, h.mem_fwRules]

namespace Untouched

/-- `filter` drops what a rule of a strict class matches. -/
theorem filter_packet (hk : Untouched foreign host classes k) (hs : RoutingSetUp classes k s)
    (p : Packet) : (s.filter.traverseOutput foreign p).packet =
      if ∃ e ∈ dropRules classes, e.matchesPacket p = true then none else some p := by
  rw [hs.filter]
  split
  · rw [hk.filter.traverseOutput_install, hk.filter_passes]
    let effect := Entry.effect foreign fun _ r => .passed r
    have hmatch : traverse effect (dropRules classes) p = .dropped ↔
        ∃ e ∈ dropRules classes, e.matchesPacket p = true := traverse_dropRules
    rcases traverse_dropped_or_passed (effect_dropRules :
      ∀ e ∈ dropRules classes, effect e p = .dropped ∨ effect e p = .passed p) with hdrop | hpass
    · rw [if_pos (hmatch.mp hdrop)]
      exact congrArg Traversal.packet hdrop
    · rw [if_neg fun h => Traversal.noConfusion ((hmatch.mpr h).symm.trans hpass)]
      exact congrArg Traversal.packet hpass
  · next hnone =>
    rw [hk.filter_passes, dropRules_of_not_any hnone]
    simp [Traversal.packet]

/-- `mangle` gives the packets of a class its mark. -/
theorem mangle_class (hk : Untouched foreign host classes k) (hwf : WellFormed classes)
    (hs : RoutingSetUp classes k s) (hC : C ∈ classes) {p : Packet} (hp : p.classid = C.classid) :
    ∃ device, s.mangle.traverseOutput foreign p = .passed ⟨device, C.classid, C.mark⟩ := by
  obtain ⟨q, hq, hclassid⟩ := hk.mangle_passes p
  rw [hs.mangle, hk.mangle.traverseOutput_install, hq]
  refine ⟨q.device, ?_⟩
  simp only [traverse_markRules hwf.classids_nodup hC (hclassid.trans hp), hclassid, hp]

/-- It leaves any other packet as it was. -/
theorem mangle_other (hk : Untouched foreign host classes k) (hs : RoutingSetUp classes k s)
    {p : Packet} (hp : ∀ cls ∈ classes, p.classid ≠ cls.classid) :
    s.mangle.traverseOutput foreign p = k.mangle.traverseOutput foreign p := by
  obtain ⟨q, hq, hclassid⟩ := hk.mangle_passes p
  rw [hs.mangle, hk.mangle.traverseOutput_install, hq]
  exact traverse_markRules_of_ne fun cls hcls => hclassid ▸ hp cls hcls

theorem mem_fwRules (hk : Untouched foreign host classes k) (hs : RoutingSetUp classes k s)
    (r : FwRule) : r ∈ s.fwRules ↔ ∃ cls ∈ classes, classRule cls = r := by
  rw [hs.mem_fwRules, hk.fwRules]
  simp

end Untouched

/-! ## The way of a packet -/

/-- The way of an unmarked packet of a class. -/
theorem Untouched.egress_class (hk : Untouched foreign host classes k) (hwf : WellFormed classes)
    (hs : RoutingSetUp classes k s) (hlocal : s.routes rtTableLocal = [])
    (hnames : ∀ dev, IsDeviceName (names dev)) (hC : C ∈ classes) {p : Packet}
    (hp : p.classid = C.classid) (hmark : ∀ cls ∈ classes, p.mark ≠ cls.mark) :
    s.egress foreign names p = s.systemDevice.bind fun first =>
      if BarredFrom classes C (names first) then none
      else some ⟨names ((s.tableDevice C.routingTable).getD first), C.classid, C.mark⟩ := by
  rw [Kernel.egress, routeDevice_other hlocal (hk.mem_fwRules hs) hmark]
  cases hfirst : s.systemDevice with
  | none => rfl
  | some first =>
    obtain ⟨device, hmangle⟩ := hk.mangle_class hwf hs hC (p := { p with device := names first }) hp
    have hlast : s.routeDevice C.mark = some ((s.tableDevice C.routingTable).getD first) := by
      rw [routeDevice_class hwf hlocal (hk.mem_fwRules hs) hC, hfirst]
      cases s.tableDevice C.routingTable <;> rfl
    have hmatch : (∃ e ∈ dropRules classes,
        e.matchesPacket ⟨names first, C.classid, C.mark⟩ = true) ↔
          BarredFrom classes C (names first) := dropRules_match_class hwf hC rfl (hnames first)
    simp only [Option.bind_eq_bind, Option.bind_some, hmangle, Traversal.packet_passed, hlast,
      hk.filter_packet hs, hmatch]
    by_cases hbarred : BarredFrom classes C (names first)
    · rw [if_pos hbarred, if_pos hbarred]
      rfl
    · rw [if_neg hbarred, if_neg hbarred]
      rfl

/-! ## Routes along a run -/

/-- Every route is installed or was there before, and tables of no class are as they were. -/
structure SameRoutes (classes : List PathClassConfig) (k s : Kernel) : Prop where
  installed : ∀ table, ∀ r ∈ s.routes table, r.installed = true ∨ r ∈ k.routes table
  other : ∀ table, (∀ cls ∈ classes, cls.routingTable ≠ table) → s.routes table = k.routes table

namespace SameRoutes

variable {k' : Kernel} {cls : PathClassConfig}

theorem of_routes (h : s.routes = k.routes) : SameRoutes classes k s :=
  ⟨fun table r hr => .inr (h ▸ hr), fun table _ => by rw [h]⟩

theorem trans (h : SameRoutes classes k k') (h' : SameRoutes classes k' s) :
    SameRoutes classes k s :=
  ⟨fun table r hr => (h'.installed table r hr).elim .inl (h.installed table r),
    fun table hother => (h'.other table hother).trans (h.other table hother)⟩

/-- A change to the table of a class that adds installed routes at most. -/
theorem setRoutes (hcls : cls ∈ classes) {rs : List Route}
    (hrs : ∀ r ∈ rs, r.installed = true ∨ r ∈ k.routes cls.routingTable) :
    SameRoutes classes k (k.setRoutes cls.routingTable rs) where
  installed table r hr := by
    by_cases htable : table = cls.routingTable
    · subst htable
      simp only [Kernel.setRoutes, Function.update_self] at hr
      exact hrs r hr
    · have hroutes : (k.setRoutes cls.routingTable rs).routes table = k.routes table :=
        Function.update_of_ne htable _ _
      exact .inr (hroutes ▸ hr)
  other table hother := Function.update_of_ne (hother cls hcls).symm _ _

theorem onCallback (hcls : cls ∈ classes) (answers : Answers) (d : Kernel × ConsumerApiServer)
    {call : Callback} (hcall : CallOf cls call) :
    SameRoutes classes d.1 (Daemon.onCallback host classes cls answers d call).1 := by
  cases call with
  | onPathUp iface table =>
    obtain ⟨rfl, rfl⟩ := hcall
    have hroute : SameRoutes classes d.1 (if answers.gateway ≠ 0 then
        (addDefaultRoute host none cls.wifiIface answers.gateway cls.routingTable d.1).state
      else d.1) := by
      split
      · by_cases hif : host.ifindex cls.wifiIface = 0
        · rw [addDefaultRoute_unknown hif]
          exact of_routes rfl
        · rw [addDefaultRoute_known hif]
          refine setRoutes hcls fun r hr => ?_
          rcases List.mem_cons.mp hr with rfl | hr
          · exact .inl rfl
          · exact .inr (List.mem_of_mem_tail hr)
      · exact of_routes rfl
    simp only [Daemon.onCallback]
    split
    · exact hroute.trans (of_routes (addEndpoints_routes _ _ _ _))
    · exact hroute
  | onPathDown iface table =>
    obtain ⟨rfl, rfl⟩ := hcall
    rw [Daemon.onCallback]
    by_cases hif : host.ifindex cls.wifiIface = 0
    · rw [removeDefaultRoute_unknown hif]
      exact of_routes rfl
    · rw [removeDefaultRoute_known hif]
      exact setRoutes hcls fun r hr => .inr (List.mem_of_mem_eraseP hr)
  | onStateChanged previous next iface rssi => exact of_routes (foldl_applyEffect_routes _ _ _ _ _)

theorem foldl_onCallback (hcls : cls ∈ classes) (answers : Answers) {calls : List Callback}
    (hcalls : ∀ call ∈ calls, CallOf cls call) (d : Kernel × ConsumerApiServer) :
    SameRoutes classes d.1 (calls.foldl (Daemon.onCallback host classes cls answers) d).1 := by
  induction calls generalizing d with
  | nil => exact of_routes rfl
  | cons call calls ih =>
    exact (onCallback hcls answers d (hcalls call (by simp))).trans
      (ih (fun c hc => hcalls c (by simp [hc])) _)

end SameRoutes

namespace TracedDaemon

variable {r : TracedDaemon}

theorem Follows.sameRoutes (h : r.Follows host classes) (e : Daemon.Event) :
    SameRoutes classes r.daemon.kernel (r.feed host classes e).daemon.kernel := by
  cases e with
  | wpa i ev answers =>
    simp only [TracedDaemon.feed, Daemon.step]
    cases hm : r.daemon.fsms[i]? with
    | none => exact .of_routes rfl
    | some m =>
      have hmem := List.mem_of_getElem? hm
      have hev : ({ ev with iface := m.config.wifiIface } : WpaEvent).iface = m.config.wifiIface :=
        rfl
      exact .foldl_onCallback (h.config_mem m hmem) answers
        ((h.ownIface m hmem).onWpaEvent hev).2.2 (r.daemon.kernel, r.daemon.server)
  | connect | message | disconnect => exact .of_routes (foldl_applyEffect_routes _ _ _ _ _)
  | exit pid => exact .of_routes rfl

/-- What holds of the routes and the set-up of a kernel along every run from it. -/
structure KeepsKernel (host : Host) (classes : List PathClassConfig) (k : Kernel)
    (r : TracedDaemon) : Prop where
  follows : r.Follows host classes
  setup : SameSetup k r.daemon.kernel
  routes : SameRoutes classes k r.daemon.kernel

theorem keepsKernel_throughout (htables : (classes.map (·.routingTable)).Nodup)
    (hk : ∀ table, NoneInstalled (k.routes table)) (events : List Daemon.Event) :
    Throughout (feed host classes) (KeepsKernel host classes k) ⟨.start classes k, []⟩ events :=
  throughout_of_invariant (fun r e h => ⟨h.follows.feed htables e,
    h.setup.trans (Daemon.step_sameSetup r.daemon e), h.routes.trans (h.follows.sameRoutes e)⟩)
    ⟨follows_start hk, .refl k, .of_routes rfl⟩ events

/-- The device that the routes of a class lead to. -/
theorem KeepsKernel.tableDevice {r : TracedDaemon} (h : r.KeepsKernel host classes k)
    (htables : (classes.map (·.routingTable)).Nodup) (hC : C ∈ classes)
    (hempty : k.routes C.routingTable = []) :
    (Outstanding r.uses C.routingTable ∧
        r.daemon.kernel.tableDevice C.routingTable = some (host.ifindex C.wifiIface)) ∨
      (¬ Outstanding r.uses C.routingTable ∧
        r.daemon.kernel.tableDevice C.routingTable = none) := by
  by_cases hout : Outstanding r.uses C.routingTable
  · obtain ⟨-, hfirst⟩ := h.follows.routes.of_outstanding htables hC hout
    refine .inl ⟨hout, ?_⟩
    cases hroutes : r.daemon.kernel.routes C.routingTable with
    | nil => simp [hroutes, FirstInstalled] at hfirst
    | cons route rs =>
      rw [hroutes] at hfirst
      simp [Kernel.tableDevice, hroutes, hfirst.1]
  · have hnone := (h.follows.routes.noneInstalled_iff _).mpr hout
    have hroutes : r.daemon.kernel.routes C.routingTable = [] := by
      rw [List.eq_nil_iff_forall_not_mem]
      intro route hroute
      rcases h.routes.installed _ route hroute with hinst | hold
      · simp [hnone route hroute] at hinst
      · simp [hempty] at hold
    exact .inr ⟨hout, by simp [Kernel.tableDevice, hroutes]⟩

end TracedDaemon

/-! ## Packets of a class -/

/-- The device that the table of `C` leads to: that of the interface of the class while the log has
the table outstanding, and none otherwise. -/
def OwnDevice (host : Host) (C : PathClassConfig) (r : TracedDaemon) (own : Option UInt32) : Prop :=
  Outstanding r.uses C.routingTable ∧ own = some (host.ifindex C.wifiIface) ∨
    ¬ Outstanding r.uses C.routingTable ∧ own = none

/-- The way out of the packets of `C` that come without the mark of a class: nowhere if unmarked
traffic has no device or a strict class bars them from it, and otherwise through the device of the
class, or, where it has none, through that of unmarked traffic. -/
def LeavesAsConfigured (foreign : Foreign) (host : Host) (names : UInt32 → Bytes)
    (classes : List PathClassConfig) (C : PathClassConfig) (k : Kernel) (r : TracedDaemon) : Prop :=
  ∀ p : Packet, p.classid = r.daemon.kernel.classidOf (host.classDir C) →
    (∀ cls ∈ classes, p.mark ≠ cls.mark) → ∃ own, OwnDevice host C r own ∧
      r.daemon.kernel.egress foreign names p = k.systemDevice.bind fun first =>
        if BarredFrom classes C (names first) then none
        else some ⟨names (own.getD first), C.classid, C.mark⟩

/-- Unmarked traffic keeps its way while the daemon leaves the tables of the system alone. -/
theorem SameRoutes.systemDevice (h : SameRoutes classes k s)
    (hspares : SparesSystemTables classes) : s.systemDevice = k.systemDevice := by
  have hsame : ∀ table ∈ [rtTableLocal, rtTableMain, rtTableDefault],
      s.tableDevice table = k.tableDevice table := by
    intro table htable
    rw [Kernel.tableDevice, Kernel.tableDevice,
      h.other table fun cls hcls heq => hspares cls hcls (heq ▸ htable)]
  simp only [Kernel.systemDevice, List.findSome?, hsame rtTableLocal (by decide),
    hsame rtTableMain (by decide), hsame rtTableDefault (by decide)]

/-- No default route comes into `local`. -/
theorem SameRoutes.local_routes (h : SameRoutes classes k s) (hspares : SparesSystemTables classes)
    (hlocal : k.routes rtTableLocal = []) : s.routes rtTableLocal = [] := by
  rw [h.other rtTableLocal fun cls hcls heq => hspares cls hcls (by simp [heq]), hlocal]

/-- What a start-up leaves, and every run keeps. -/
theorem Untouched.throughout (hk : Untouched foreign host classes k) (hwf : WellFormed classes)
    (hok : (startUp host faults classes k).failed = none) (events : List Daemon.Event) :
    (HoldsClassids host classes (startUp host faults classes k).kernel ↔
        classes.Pairwise (KeptApart host)) ∧
      (startUp host faults classes k).kernel.routes = k.routes ∧
      Throughout (TracedDaemon.feed host classes)
        (fun r => r.KeepsKernel host classes (startUp host faults classes k).kernel ∧
          RoutingSetUp classes k r.daemon.kernel)
        ⟨.start classes (startUp host faults classes k).kernel, []⟩ events := by
  obtain ⟨hsetup, endpoints, hkernel⟩ := startUp_ok hok
  have hs := setUpRouting_ok hsetup
  obtain ⟨hcgroups, mangle, filter, fwRules, hstate⟩ := setUpRouting_hierarchy hsetup
  obtain ⟨hset, hholds⟩ := createCgroupHierarchy_ok hk.cgroups hwf hcgroups
  have hroutes : (startUp host faults classes k).kernel.routes = k.routes := by
    rw [hkernel, hstate, hset.frame]
  have hnone : ∀ table, NoneInstalled ((startUp host faults classes k).kernel.routes table) := by
    rw [hroutes]
    exact hk.routes
  have hstarted : RoutingSetUp classes k (startUp host faults classes k).kernel := by
    rw [hkernel]
    exact ⟨hs.mangle, hs.filter, hs.mem_fwRules⟩
  refine ⟨?_, hroutes, ?_⟩
  · rw [← hholds, hkernel, hstate]
    rfl
  · exact (TracedDaemon.keepsKernel_throughout hwf.tables_nodup hnone events).mono
      fun r hr => ⟨hr, hstarted.of_sameSetup hr.setup⟩

/-- After a start-up of a configuration whose classes are kept apart and use no table of the system,
the packets of every class leave as configured in every state of every run. -/
theorem egress_throughout (foreign : Foreign) (host : Host) (names : UInt32 → Bytes)
    (faults : StartupFaults) (classes : List PathClassConfig) (k : Kernel)
    (events : List Daemon.Event) (hacc : Accepted classes)
    (hapart : classes.Pairwise (KeptApart host)) (hspares : SparesSystemTables classes)
    (hk : Untouched foreign host classes k) (hnames : ∀ dev, IsDeviceName (names dev))
    (hok : (startUp host faults classes k).failed = none) :
    Throughout (TracedDaemon.feed host classes)
      (fun r => ∀ C ∈ classes, LeavesAsConfigured foreign host names classes C k r)
      ⟨.start classes (startUp host faults classes k).kernel, []⟩ events := by
  have hwf := hacc.wellFormed
  obtain ⟨hholds, hroutes, hrun⟩ := hk.throughout hwf hok events
  refine hrun.mono ?_
  rintro r ⟨hr, hset⟩ C hC p hp hmark
  have hclassid : r.daemon.kernel.classidOf (host.classDir C) = C.classid := by
    rw [Kernel.classidOf, hr.setup.cgroups]
    exact hholds.mpr hapart C hC
  have hlocal : r.daemon.kernel.routes rtTableLocal = [] :=
    hr.routes.local_routes hspares (by rw [hroutes, hk.local_routes])
  have hsystem : r.daemon.kernel.systemDevice = k.systemDevice := by
    rw [hr.routes.systemDevice hspares, systemDevice_congr hroutes]
  have hegress := hk.egress_class hwf hset hlocal hnames hC (hp.trans hclassid) hmark
  rw [hsystem] at hegress
  exact ⟨_, hr.tableDevice hwf.tables_nodup hC (by rw [hroutes, hk.class_routes C hC]), hegress⟩

/-- The names of the devices of the shipped configuration, and `eth0` for the others. -/
def vlanNames (dev : UInt32) : Bytes :=
  if dev = 4 then Bytes.ascii "eth0.100" else if dev = 5 then Bytes.ascii "eth0.200"
  else if dev = 6 then Bytes.ascii "eth0.300" else Bytes.ascii "eth0"

theorem isDeviceName_vlanNames (dev : UInt32) : IsDeviceName (vlanNames dev) := by
  unfold vlanNames
  split_ifs <;> decide

/-- The kernel after boot with a default route of the system. -/
def uplinkKernel : Kernel :=
  { bootedKernel with
    routes := fun table => if table = rtTableMain then [⟨2, 0x0101a8c0, false⟩] else [] }

theorem uplinkKernel_untouched :
    Untouched (fun _ p => .passed p) vlanHost pathPolicies uplinkKernel where
  cgroups := ⟨by decide, by decide⟩
  fwRules := rfl
  mangle := ⟨by decide, by decide, by decide⟩
  filter := ⟨by decide, by decide, by decide⟩
  routes := by
    intro table r hr
    simp only [uplinkKernel] at hr
    split at hr
    · rw [List.mem_singleton.mp hr]
    · cases hr
  class_routes := by decide
  local_routes := rfl
  mangle_passes p := ⟨p, rfl, rfl⟩
  filter_passes _ := rfl

theorem egress_throughout_shipped :
    let started := startUp vlanHost {} pathPolicies uplinkKernel
    started.failed = none ∧
      Throughout (TracedDaemon.feed vlanHost pathPolicies)
        (fun r => ∀ C ∈ pathPolicies,
          LeavesAsConfigured (fun _ p => .passed p) vlanHost vlanNames pathPolicies C
            uplinkKernel r)
        ⟨.start pathPolicies started.kernel, []⟩ settledRun := by
  have hok : (startUp vlanHost {} pathPolicies uplinkKernel).failed = none := by decide
  exact ⟨hok, egress_throughout _ _ _ _ _ _ _ pathPolicies_accepted (by decide) (by decide)
    uplinkKernel_untouched isDeviceName_vlanNames hok⟩

/-! ## Packets of others -/

theorem Untouched.routeDevice (hk : Untouched foreign host classes k) (mark : UInt32) :
    k.routeDevice mark = k.systemDevice := by
  rw [routeDevice_eq hk.local_routes, consultedTables, hk.fwRules]
  rfl

/-- In every state of every run, the packets of no class leave as they did before the daemon was
started, unless they come with the mark of a class, or out of the tables of before with one. -/
theorem egress_others_throughout (foreign : Foreign) (host : Host) (names : UInt32 → Bytes)
    (faults : StartupFaults) (classes : List PathClassConfig) (k : Kernel)
    (events : List Daemon.Event) (hacc : Accepted classes) (hspares : SparesSystemTables classes)
    (hk : Untouched foreign host classes k)
    (hok : (startUp host faults classes k).failed = none) :
    Throughout (TracedDaemon.feed host classes)
      (fun r => ∀ p : Packet, (∀ cls ∈ classes, p.classid ≠ cls.classid ∧ p.mark ≠ cls.mark) →
        (∀ device q, k.mangle.traverseOutput foreign { p with device } = .passed q →
          ∀ cls ∈ classes, q.mark ≠ cls.mark) →
        r.daemon.kernel.egress foreign names p = k.egress foreign names p)
      ⟨.start classes (startUp host faults classes k).kernel, []⟩ events := by
  obtain ⟨-, hroutes, hrun⟩ := hk.throughout hacc.wellFormed hok events
  refine hrun.mono ?_
  rintro r ⟨hr, hset⟩ p hp hmark
  have hlocal : r.daemon.kernel.routes rtTableLocal = [] :=
    hr.routes.local_routes hspares (by rw [hroutes, hk.local_routes])
  have hsystem : r.daemon.kernel.systemDevice = k.systemDevice := by
    rw [hr.routes.systemDevice hspares, systemDevice_congr hroutes]
  have hlookup {mark : UInt32} (hmark : ∀ cls ∈ classes, mark ≠ cls.mark) :
      r.daemon.kernel.routeDevice mark = k.routeDevice mark := by
    rw [routeDevice_other hlocal (hk.mem_fwRules hset) hmark, hk.routeDevice, hsystem]
  rw [Kernel.egress, Kernel.egress, hlookup fun cls hcls => (hp cls hcls).2]
  congr 1
  funext first
  obtain ⟨q, hq, -⟩ := hk.mangle_passes { p with device := names first }
  have hqmark := hmark (names first) q hq
  have hnone : ¬ ∃ e ∈ dropRules classes, e.matchesPacket { q with device := names first } = true :=
    dropRules_match_other hqmark
  have hmangle := hk.mangle_other hset (p := { p with device := names first })
    fun cls hcls => (hp cls hcls).1
  simp only [hmangle, hq, Option.bind_eq_bind, Traversal.packet_passed, Option.bind_some,
    hlookup hqmark]
  rw [hk.filter_packet hset, if_neg hnone, hk.filter_passes, Traversal.packet_passed]

theorem egress_others_shipped :
    let started := startUp vlanHost {} pathPolicies uplinkKernel
    started.failed = none ∧
      Throughout (TracedDaemon.feed vlanHost pathPolicies)
        (fun r => ∀ p : Packet,
          (∀ cls ∈ pathPolicies, p.classid ≠ cls.classid ∧ p.mark ≠ cls.mark) →
          (∀ device q,
            uplinkKernel.mangle.traverseOutput (fun _ p => .passed p) { p with device } =
              .passed q → ∀ cls ∈ pathPolicies, q.mark ≠ cls.mark) →
          r.daemon.kernel.egress (fun _ p => .passed p) vlanNames p =
            uplinkKernel.egress (fun _ p => .passed p) vlanNames p)
        ⟨.start pathPolicies started.kernel, []⟩ settledRun := by
  have hok : (startUp vlanHost {} pathPolicies uplinkKernel).failed = none := by decide
  exact ⟨hok, egress_others_throughout _ _ _ _ _ _ _ pathPolicies_accepted (by decide)
    uplinkKernel_untouched hok⟩

/-! ## After the daemon -/

theorem Untouched.clean (hk : Untouched foreign host classes k) :
    CleanKernel host classes k where
  priority_ne := by simp [hk.fwRules]
  mangle := hk.mangle
  filter := hk.filter
  not_mem_dirs := hk.cgroups.not_mem_dirs

/-- Whatever a run leaves installed, once the daemon is shut down every packet leaves as it did
before the daemon was started. -/
theorem egress_restored (foreign : Foreign) (host : Host) (names : UInt32 → Bytes)
    (faults : StartupFaults) (classes : List PathClassConfig) (k : Kernel)
    (events : List Daemon.Event) (hacc : Accepted classes) (hspares : SparesSystemTables classes)
    (hk : Untouched foreign host classes k)
    (hok : (startUp host faults classes k).failed = none) (p : Packet) :
    ((runFrom host faults classes k events).daemon.shutdown host classes).egress foreign names p =
      k.egress foreign names p := by
  obtain ⟨-, hroutes, hrun⟩ := hk.throughout hacc.wellFormed hok events
  obtain ⟨hr, -⟩ := hrun.last
  have hruns := runFrom_runsOn hacc hk.clean hk.routes hok events
  have hshut := Daemon.shutdown_eq hruns.partlySetUp hk.clean.toNoPolicy
  rw [removeCgroups_frame] at hshut
  have hsystem :
      ((runFrom host faults classes k events).daemon.shutdown host classes).systemDevice =
        k.systemDevice := by
    rw [systemDevice_congr (Daemon.shutdown_routes hruns.partlySetUp hk.clean.toNoPolicy),
      ← systemDevice_congr hroutes]
    exact hr.routes.systemDevice hspares
  have hlocal :
      ((runFrom host faults classes k events).daemon.shutdown host classes).routes rtTableLocal =
        [] := by
    rw [Daemon.shutdown_routes hruns.partlySetUp hk.clean.toNoPolicy]
    exact hr.routes.local_routes hspares (by rw [hroutes, hk.local_routes])
  have hlookup (mark : UInt32) :
      ((runFrom host faults classes k events).daemon.shutdown host classes).routeDevice mark =
        k.routeDevice mark := by
    rw [hk.routeDevice, routeDevice_eq hlocal, consultedTables, hsystem]
    rw [hshut, hk.fwRules]
    rfl
  simp only [Kernel.egress, hlookup]
  rw [hshut]

/-- The route of a path that is still up stays behind, and a packet of its class does not take
it. -/
theorem egress_restored_open_path :
    let r := runFrom vlanHost {} pathPolicies uplinkKernel
      [.wpa 0 { type := .connected, iface := [] } { gateway := 0x0164a8c0 }]
    let p : Packet := ⟨[], 0x00100001, 0⟩
    (startUp vlanHost {} pathPolicies uplinkKernel).failed = none ∧
      (r.daemon.shutdown vlanHost pathPolicies).routes 100 ≠ [] ∧
      (r.daemon.shutdown vlanHost pathPolicies).egress (fun _ p => .passed p) vlanNames p =
        uplinkKernel.egress (fun _ p => .passed p) vlanNames p := by
  intro r p
  have hok : (startUp vlanHost {} pathPolicies uplinkKernel).failed = none := by decide
  exact ⟨hok, by decide, egress_restored _ _ _ _ _ _ _ pathPolicies_accepted (by decide)
    uplinkKernel_untouched hok p⟩

end WifiOffload
