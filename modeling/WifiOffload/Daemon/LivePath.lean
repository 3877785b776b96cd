import WifiOffload.Daemon.Routes

/-!
# Routes of live paths

Whether a path that consumers were told to be usable has its default route. `main` asks for the
gateway once, when `PathUp` is entered, so that a path that became live in another way, or before
its gateway was known, stays without a route.
-/

namespace WifiOffload

open StateMachine AcquireLog

/-- The table of a class has a default route through its interface. -/
def HasRoute (host : Host) (k : Kernel) (cls : PathClassConfig) : Prop :=
  ∃ r ∈ k.routes cls.routingTable, r.dev = host.ifindex cls.wifiIface

instance (host : Host) (k : Kernel) (cls : PathClassConfig) : Decidable (HasRoute host k cls) :=
  inferInstanceAs (Decidable (∃ r ∈ _, _))

/-- The path that an event was about has its route, if it is live and its gateway was known. -/
def LiveRouted (host : Host) (d : Daemon) : Daemon.Event → Prop
  | .wpa i _ answers => ∀ m ∈ d.fsms[i]?, isDownState m.state = false → answers.gateway ≠ 0 →
      HasRoute host d.kernel m.config
  | _ => True

/-- `PathUp` was entered with a known gateway since the last teardown, or a route that was not
installed by the daemon is in place. -/
def RouteHeld (host : Host) (r : TracedDaemon) (cls : PathClassConfig) : Prop :=
  Outstanding r.uses cls.routingTable ∨
    ∃ route ∈ r.daemon.kernel.routes cls.routingTable,
      route.dev = host.ifindex cls.wifiIface ∧ route.installed = false

/-- An event that leaves a path live with its gateway known enters `PathUp`, or the route is
held already. -/
def RouteCovered (host : Host) (r : TracedDaemon) : Daemon.Event → Prop
  | .wpa i ev answers => ∀ m ∈ r.daemon.fsms[i]?,
      isDownState (PathStateFsm.nextState m.state ev m.config.rssi) = false →
      answers.gateway ≠ 0 →
      (m.state ≠ .pathUp ∧ PathStateFsm.nextState m.state ev m.config.rssi = .pathUp) ∨
        RouteHeld host r m.config
  | _ => True

variable {host : Host} {classes : List PathClassConfig} {cls : PathClassConfig}
  {r : TracedDaemon}

/-- The table of a class has a route through its interface while the log has one outstanding,
and besides only where one was there before. -/
theorem TracedDaemon.Follows.hasRoute_iff (h : r.Follows host classes)
    (htables : (classes.map (·.routingTable)).Nodup) (hcls : cls ∈ classes) :
    HasRoute host r.daemon.kernel cls ↔ RouteHeld host r cls := by
  constructor
  · rintro ⟨route, hroute, hdev⟩
    cases hinst : route.installed with
    | false => exact .inr ⟨route, hroute, hdev, hinst⟩
    | true =>
      refine .inl (by_contra fun hnot => ?_)
      have hnone := (h.routes.noneInstalled_iff _).mpr hnot route hroute
      simp [hinst] at hnone
  · rintro (hout | ⟨route, hroute, hdev, -⟩)
    · obtain ⟨-, hfirst⟩ := h.routes.of_outstanding htables hcls hout
      cases hroutes : r.daemon.kernel.routes cls.routingTable with
      | nil => simp [hroutes, FirstInstalled] at hfirst
      | cons route rs =>
        rw [hroutes] at hfirst
        exact ⟨route, by simp [hroutes], hfirst.1⟩
    · exact ⟨route, hroute, hdev⟩

/-- The entry of `PathUp` installs the route of a class whose gateway is known. -/
theorem hasRoute_onPathUp (answers : Answers) (p : Kernel × ConsumerApiServer)
    (hif : host.ifindex cls.wifiIface ≠ 0) (hgw : answers.gateway ≠ 0) :
    HasRoute host (Daemon.onCallback host classes cls answers p
      (.onPathUp cls.wifiIface cls.routingTable)).1 cls := by
  have hadd : HasRoute host (addDefaultRoute host none cls.wifiIface answers.gateway
      cls.routingTable p.1).state cls := by
    rw [addDefaultRoute_known hif]
    exact ⟨⟨host.ifindex cls.wifiIface, answers.gateway, true⟩, by simp [Kernel.setRoutes], rfl⟩
  simp only [Daemon.onCallback, if_pos hgw]
  split
  · rwa [HasRoute, addEndpoints_routes]
  · exact hadd

/-- The event loop of `main` tells the consumers and leaves the routes alone. -/
theorem hasRoute_onStateChanged (answers : Answers) (p : Kernel × ConsumerApiServer)
    (previous next : PathState) (iface : Bytes) (rssi : Int) :
    HasRoute host (Daemon.onCallback host classes cls answers p
      (.onStateChanged previous next iface rssi)).1 cls ↔ HasRoute host p.1 cls := by
  simp only [HasRoute, Daemon.onCallback, foldl_applyEffect_routes]

/-- One event leaves a live path with its route exactly when it was covered. -/
theorem TracedDaemon.Follows.liveRouted_iff (h : r.Follows host classes)
    (htables : (classes.map (·.routingTable)).Nodup)
    (hknown : ∀ cls ∈ classes, host.ifindex cls.wifiIface ≠ 0) (e : Daemon.Event) :
    LiveRouted host (r.feed host classes e).daemon e ↔ RouteCovered host r e := by
  cases e with
  | wpa i ev answers =>
    simp only [LiveRouted, RouteCovered, TracedDaemon.feed, Daemon.step]
    cases hm : r.daemon.fsms[i]? with
    | none => simp [hm]
    | some m =>
      have hlt : i < r.daemon.fsms.length := (List.getElem?_eq_some_iff.mp hm).1
      have hcls := h.config_mem m (List.mem_of_getElem? hm)
      have hheld := h.hasRoute_iff htables hcls
      have hnext : PathStateFsm.nextState m.state { ev with iface := m.config.wifiIface }
          m.config.rssi = PathStateFsm.nextState m.state ev m.config.rssi := rfl
      simp only [List.getElem?_set_self hlt, Option.mem_def, Option.some.injEq, forall_eq']
      rcases m.onWpaEvent_cases { ev with iface := m.config.wifiIface } with
        ⟨hsame, hev⟩ | ⟨hne, hup, hev⟩ | ⟨hdown, -, hev⟩ | ⟨hne, hnup, -, hev⟩
      · rw [hnext] at hsame
        simp only [hev, List.foldl_nil, hsame, hheld]
        grind
      · rw [hnext] at hup hne
        simp only [hev, List.foldl_cons, List.foldl_nil, hasRoute_onStateChanged, hup]
        refine iff_of_true (fun _ hgw => ?_)
          fun _ _ => .inl ⟨fun heq => hne (hup.trans heq.symm), trivial⟩
        exact hasRoute_onPathUp answers _ (hknown _ hcls) hgw
      · rw [hnext] at hdown
        simp [hev, hdown, isDownState]
      · rw [hnext] at hnup
        simp only [hev, List.foldl_cons, List.foldl_nil, hasRoute_onStateChanged, hheld, hnup,
          and_false, false_or]
        rfl
  | connect | message | disconnect | exit => exact Iff.rfl

/-! ## A whole run -/

/-- Along every run of an accepted configuration whose interfaces exist, the live paths have
their routes exactly when every event that finds the gateway of a live path enters `PathUp` or
comes while the route is held. -/
theorem live_routed_iff (host : Host) (classes : List PathClassConfig) (k : Kernel)
    (events : List Daemon.Event) (hacc : Accepted classes)
    (hk : ∀ table, NoneInstalled (k.routes table))
    (hknown : ∀ cls ∈ classes, host.ifindex cls.wifiIface ≠ 0) :
    let feed := TracedDaemon.feed host classes
    StepsMeet feed (fun r e => LiveRouted host (feed r e).daemon e) ⟨.start classes k, []⟩
        events ↔
      StepsMeet feed (RouteCovered host) ⟨.start classes k, []⟩ events := by
  have htables := hacc.wellFormed.tables_nodup
  exact stepsMeet_iff_of_invariant (fun _ e h => h.feed htables e)
    (fun _ e h => h.liveRouted_iff htables hknown e) (TracedDaemon.follows_start hk) events

/-- A gateway that is known from the start stays in use. -/
theorem live_routed_known_gateway :
    let feed := TracedDaemon.feed vlanHost pathPolicies
    let events : List Daemon.Event :=
      [.wpa 0 { type := .connected, iface := [] } { gateway := 0x0164a8c0 },
        .wpa 0 { type := .signalChange, iface := [], rssi := -80 } { gateway := 0x0164a8c0 }]
    (run feed ⟨.start pathPolicies bootedKernel, []⟩ events).uses = [.acquire 100] ∧
      (StepsMeet feed (fun r e => LiveRouted vlanHost (feed r e).daemon e)
          ⟨.start pathPolicies bootedKernel, []⟩ events ↔
        StepsMeet feed (RouteCovered vlanHost) ⟨.start pathPolicies bootedKernel, []⟩ events) := by
  intro feed events
  exact ⟨by decide, live_routed_iff _ _ _ events pathPolicies_accepted
    (by intro table r hr; cases hr) (by decide)⟩

/-- A gateway that is not known yet when the connection is made is never asked for again: the
path is reported usable, and at the next report the gateway is known and no route is there. -/
theorem late_gateway_not_routed :
    ¬ ∀ (host : Host) (classes : List PathClassConfig) (k : Kernel) (events : List Daemon.Event),
        Accepted classes → (∀ table, NoneInstalled (k.routes table)) →
        (∀ cls ∈ classes, host.ifindex cls.wifiIface ≠ 0) →
        StepsMeet (TracedDaemon.feed host classes)
          (fun r e => LiveRouted host (r.feed host classes e).daemon e) ⟨.start classes k, []⟩
          events := by
  intro h
  have hrun := h vlanHost pathPolicies bootedKernel
    [.wpa 0 { type := .connected, iface := [] } {},
      .wpa 0 { type := .signalChange, iface := [], rssi := -80 } { gateway := 0x0164a8c0 }]
    pathPolicies_accepted (by intro table r hr; cases hr) (by decide)
  have hroute := hrun.2.1 ⟨pathPolicies.head (by decide), .pathDegraded, Bytes.ascii "eth0.100"⟩
    (by decide) (by decide) (by decide)
  exact absurd hroute (by decide)

end WifiOffload
