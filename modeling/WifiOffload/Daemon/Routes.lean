import WifiOffload.Daemon.Run
import WifiOffload.Library.Outstanding

/-!
# Installed routes along a run of the daemon

What `main` makes of the calls of the path machines is an acquire and release log of routing
tables. No two classes share a table, so a table holds an installed route exactly while the log
has it outstanding, and that route is the first of its table and leads through the interface of
the class.
-/

namespace WifiOffload

open StateMachine AcquireLog

/-- What a callback does to the default route of a table. -/
def tableUse (host : Host) (answers : Answers) : Callback → Option (Use UInt32)
  | .onPathUp iface table =>
    if answers.gateway ≠ 0 ∧ host.ifindex iface ≠ 0 then some (.acquire table) else none
  | .onPathDown _ table => some (.release table)
  | .onStateChanged .. => none

def Daemon.tableUses (host : Host) (d : Daemon) : Daemon.Event → List (Use UInt32)
  | .wpa i ev answers =>
    match d.fsms[i]? with
    | none => []
    | some m =>
      (m.onWpaEvent { ev with iface := m.config.wifiIface }).2.filterMap (tableUse host answers)
  | _ => []

/-- A daemon together with what it has done to the tables so far. -/
structure TracedDaemon where
  daemon : Daemon
  uses : List (Use UInt32) := []

def TracedDaemon.feed (host : Host) (classes : List PathClassConfig) (r : TracedDaemon)
    (e : Daemon.Event) : TracedDaemon :=
  ⟨r.daemon.step host classes e, r.uses ++ r.daemon.tableUses host e⟩

theorem TracedDaemon.daemon_run (host : Host) (classes : List PathClassConfig) (r : TracedDaemon)
    (events : List Daemon.Event) : (run (feed host classes) r events).daemon =
      run (Daemon.step host classes) r.daemon events := by
  induction events generalizing r with
  | nil => rfl
  | cons e events ih => exact ih (r.feed host classes e)

/-! ## One table -/

def NoneInstalled (rs : List Route) : Prop := ∀ r ∈ rs, r.installed = false

/-- The first route is the installed one. -/
def FirstInstalled (dev : UInt32) : List Route → Prop
  | [] => False
  | r :: rs => r.dev = dev ∧ r.installed = true ∧ NoneInstalled rs

theorem NoneInstalled.tail {rs : List Route} (h : NoneInstalled rs) : NoneInstalled rs.tail :=
  fun r hr => h r (List.mem_of_mem_tail hr)

theorem FirstInstalled.tail {dev : UInt32} {rs : List Route} (h : FirstInstalled dev rs) :
    NoneInstalled rs.tail := by
  cases rs with
  | nil => exact h.elim
  | cons r rs => exact h.2.2

theorem FirstInstalled.eraseP {dev : UInt32} {rs : List Route} (h : FirstInstalled dev rs) :
    NoneInstalled (rs.eraseP (·.dev = dev)) := by
  cases rs with
  | nil => exact h.elim
  | cons r rs =>
    have hrs : (r :: rs).eraseP (·.dev = dev) = rs := List.eraseP_cons_of_pos (decide_eq_true h.1)
    rw [hrs]
    exact h.2.2

theorem FirstInstalled.exists {dev : UInt32} {rs : List Route} (h : FirstInstalled dev rs) :
    ∃ r ∈ rs, r.installed = true := by
  cases rs with
  | nil => exact h.elim
  | cons r rs => exact ⟨r, by simp, h.2.1⟩

/-! ## All tables -/

/-- A table that is outstanding has an installed route of its class in front, and no other table
has an installed route. -/
def RoutesFollow (host : Host) (classes : List PathClassConfig) (routes : UInt32 → List Route)
    (uses : List (Use UInt32)) : Prop :=
  ∀ table, (¬ Outstanding uses table ∧ NoneInstalled (routes table)) ∨
    (Outstanding uses table ∧ ∃ cls ∈ classes, cls.routingTable = table ∧
      host.ifindex cls.wifiIface ≠ 0 ∧ FirstInstalled (host.ifindex cls.wifiIface) (routes table))

variable {host : Host} {classes : List PathClassConfig} {cls : PathClassConfig}
  {routes : UInt32 → List Route} {uses : List (Use UInt32)}

theorem RoutesFollow.noneInstalled_iff (h : RoutesFollow host classes routes uses)
    (table : UInt32) : NoneInstalled (routes table) ↔ ¬ Outstanding uses table := by
  rcases h table with ⟨hnot, hnone⟩ | ⟨hout, cls, -, -, -, hfirst⟩
  · exact iff_of_true hnone hnot
  · obtain ⟨r, hr, hinst⟩ := hfirst.exists
    exact iff_of_false (fun hnone => by simp [hnone r hr] at hinst) (not_not.mpr hout)

theorem RoutesFollow.noneInstalled_tail (h : RoutesFollow host classes routes uses)
    (table : UInt32) : NoneInstalled (routes table).tail := by
  rcases h table with ⟨-, hnone⟩ | ⟨-, cls, -, -, -, hfirst⟩
  · exact hnone.tail
  · exact hfirst.tail

/-- A new route takes the place of the first one. -/
theorem RoutesFollow.acquire (h : RoutesFollow host classes routes uses) (hcls : cls ∈ classes)
    (hif : host.ifindex cls.wifiIface ≠ 0) (gateway : UInt32) :
    RoutesFollow host classes (Function.update routes cls.routingTable
      (⟨host.ifindex cls.wifiIface, gateway, true⟩ :: (routes cls.routingTable).tail))
      (uses ++ [.acquire cls.routingTable]) := by
  intro table
  rw [outstanding_concat_acquire]
  by_cases htable : table = cls.routingTable
  · subst htable
    rw [Function.update_self]
    exact .inr ⟨.inl rfl, cls, hcls, rfl, hif, rfl, rfl, h.noneInstalled_tail _⟩
  · rw [Function.update_of_ne htable]
    simpa [htable] using h table

/-- The installed route of a table leads through the interface of its class. -/
theorem RoutesFollow.of_outstanding (h : RoutesFollow host classes routes uses)
    (htables : (classes.map (·.routingTable)).Nodup) (hcls : cls ∈ classes)
    (hout : Outstanding uses cls.routingTable) : host.ifindex cls.wifiIface ≠ 0 ∧
      FirstInstalled (host.ifindex cls.wifiIface) (routes cls.routingTable) := by
  rcases h cls.routingTable with ⟨hnot, -⟩ | ⟨-, c, hc, hsame, hfirst⟩
  · exact absurd hout hnot
  · obtain rfl : c = cls := List.inj_on_of_nodup_map htables hc hcls hsame
    exact hfirst

/-- A removal takes the installed route of its table, if there is one. -/
theorem RoutesFollow.release (h : RoutesFollow host classes routes uses)
    (htables : (classes.map (·.routingTable)).Nodup) (hcls : cls ∈ classes) :
    RoutesFollow host classes (if host.ifindex cls.wifiIface = 0 then routes else
      Function.update routes cls.routingTable
        ((routes cls.routingTable).eraseP (·.dev = host.ifindex cls.wifiIface)))
      (uses ++ [.release cls.routingTable]) := by
  intro table
  rw [outstanding_concat_release]
  by_cases htable : table = cls.routingTable
  · subst htable
    refine .inl ⟨fun hout => hout.1 rfl, ?_⟩
    by_cases hout : Outstanding uses cls.routingTable
    · obtain ⟨hif, hfirst⟩ := h.of_outstanding htables hcls hout
      rw [if_neg hif, Function.update_self]
      exact hfirst.eraseP
    · have hnone := (h.noneInstalled_iff _).mpr hout
      split
      · exact hnone
      · rw [Function.update_self]
        exact fun r hr => hnone r (List.mem_of_mem_eraseP hr)
  · have hother : (if host.ifindex cls.wifiIface = 0 then routes else
        Function.update routes cls.routingTable
          ((routes cls.routingTable).eraseP (·.dev = host.ifindex cls.wifiIface))) table =
        routes table := by
      split
      · rfl
      · exact Function.update_of_ne htable _ _
    rw [hother]
    simpa [htable] using h table

/-! ## One event -/

/-- The callback is about the route of a class. -/
def CallOf (cls : PathClassConfig) : Callback → Prop
  | .onPathUp iface table | .onPathDown iface table =>
    iface = cls.wifiIface ∧ table = cls.routingTable
  | .onStateChanged .. => True

theorem foldl_applyEffect_routes (host : Host) (writer : Writer) (running : Int32 → Bool)
    (effects : List Effect) (k : Kernel) :
    (effects.foldl (applyEffect host writer running) k).routes = k.routes := by
  induction effects generalizing k with
  | nil => rfl
  | cons e effects ih =>
    obtain ⟨tasks, heq⟩ := applyEffect_frame host writer running k e
    rw [List.foldl_cons, ih, heq]

theorem addEndpoints_routes (host : Host) (faults : EndpointFaults)
    (classes : List PathClassConfig) (k : Kernel) :
    (addEndpoints host faults classes k).state.routes = k.routes := by
  obtain ⟨added, hstate, -⟩ := addEndpoints_state host faults classes k
  rw [hstate]

theorem onCallback_follow (answers : Answers) (p : Kernel × ConsumerApiServer) {call : Callback}
    (h : RoutesFollow host classes p.1.routes uses)
    (htables : (classes.map (·.routingTable)).Nodup) (hcls : cls ∈ classes)
    (hcall : CallOf cls call) :
    RoutesFollow host classes (Daemon.onCallback host classes cls answers p call).1.routes
      (uses ++ (tableUse host answers call).toList) := by
  cases call with
  | onPathUp iface table =>
    obtain ⟨rfl, rfl⟩ := hcall
    have hroutes : (Daemon.onCallback host classes cls answers p
        (.onPathUp cls.wifiIface cls.routingTable)).1.routes =
        (if answers.gateway ≠ 0 then
          (addDefaultRoute host none cls.wifiIface answers.gateway cls.routingTable p.1).state
        else p.1).routes := by
      simp only [Daemon.onCallback]
      split
      · exact addEndpoints_routes _ _ _ _
      · rfl
    rw [hroutes, tableUse]
    by_cases hgw : answers.gateway ≠ 0
    · rw [if_pos hgw]
      by_cases hif : host.ifindex cls.wifiIface = 0
      · rw [addDefaultRoute_unknown hif]
        simpa [hif] using h
      · rw [addDefaultRoute_known hif, if_pos ⟨hgw, hif⟩]
        exact h.acquire hcls hif _
    · rw [if_neg hgw, if_neg fun hboth => hgw hboth.1]
      simpa using h
  | onPathDown iface table =>
    obtain ⟨rfl, rfl⟩ := hcall
    have hrelease := h.release htables hcls
    rw [Daemon.onCallback]
    by_cases hif : host.ifindex cls.wifiIface = 0
    · rw [removeDefaultRoute_unknown hif]
      rwa [if_pos hif] at hrelease
    · rw [removeDefaultRoute_known hif]
      rwa [if_neg hif] at hrelease
  | onStateChanged previous next iface rssi =>
    simp only [Daemon.onCallback, foldl_applyEffect_routes, tableUse, Option.toList_none,
      List.append_nil]
    exact h

theorem foldl_onCallback_follow {answers : Answers}
    (htables : (classes.map (·.routingTable)).Nodup) (hcls : cls ∈ classes) {calls : List Callback}
    (hcalls : ∀ call ∈ calls, CallOf cls call) {p : Kernel × ConsumerApiServer}
    (h : RoutesFollow host classes p.1.routes uses) :
    RoutesFollow host classes
      (calls.foldl (Daemon.onCallback host classes cls answers) p).1.routes
      (uses ++ calls.filterMap (tableUse host answers)) := by
  induction calls generalizing p uses with
  | nil => simpa using h
  | cons call calls ih =>
    have hcall := onCallback_follow answers p h htables hcls (hcalls call (by simp))
    have hrest := ih (fun c hc => hcalls c (by simp [hc])) hcall
    have huses : (call :: calls).filterMap (tableUse host answers) =
        (tableUse host answers call).toList ++ calls.filterMap (tableUse host answers) := by
      cases huse : tableUse host answers call <;> simp [huse]
    rw [List.foldl_cons, huses, ← List.append_assoc]
    exact hrest

/-- The machine has been live on no interface but that of its class. -/
def PathStateFsm.OwnIface (m : PathStateFsm) : Prop :=
  m.activeIface = [] ∨ m.activeIface = m.config.wifiIface

theorem PathStateFsm.OwnIface.onWpaEvent {m : PathStateFsm} {ev : WpaEvent} (h : m.OwnIface)
    (hev : ev.iface = m.config.wifiIface) :
    (m.onWpaEvent ev).1.config = m.config ∧ (m.onWpaEvent ev).1.OwnIface ∧
      ∀ call ∈ (m.onWpaEvent ev).2, CallOf m.config call := by
  rcases m.onWpaEvent_cases ev with ⟨-, heq⟩ | ⟨-, -, heq⟩ | ⟨-, -, heq⟩ | ⟨-, -, -, heq⟩
  · simpa [heq] using h
  · simp [heq, OwnIface, CallOf, hev]
  · rw [heq]
    refine ⟨rfl, .inl rfl, fun call hcall => ?_⟩
    by_cases hset : m.activeIface = []
    · simp only [hset, ne_eq, not_true_eq_false, if_false, List.mem_singleton] at hcall
      rw [hcall]
      trivial
    · rw [if_pos hset, List.mem_cons, List.mem_singleton] at hcall
      rcases hcall with rfl | rfl
      · exact ⟨h.resolve_left hset, rfl⟩
      · trivial
  · rw [heq]
    refine ⟨rfl, h, fun call hcall => ?_⟩
    rw [List.mem_singleton.mp hcall]
    trivial

/-! ## A whole run -/

namespace TracedDaemon

structure Follows (host : Host) (classes : List PathClassConfig) (r : TracedDaemon) : Prop where
  config_mem : ∀ m ∈ r.daemon.fsms, m.config ∈ classes
  ownIface : ∀ m ∈ r.daemon.fsms, m.OwnIface
  routes : RoutesFollow host classes r.daemon.kernel.routes r.uses

theorem follows_start {k : Kernel} (h : ∀ table, NoneInstalled (k.routes table)) :
    Follows host classes ⟨.start classes k, []⟩ where
  config_mem m hm := by
    obtain ⟨cls, hcls, rfl⟩ := List.mem_map.mp hm
    exact List.mem_of_mem_filter hcls
  ownIface m hm := by
    obtain ⟨cls, hcls, rfl⟩ := List.mem_map.mp hm
    exact .inl rfl
  routes table := .inl ⟨outstanding_nil table, h table⟩

theorem Follows.feed {r : TracedDaemon} (h : Follows host classes r)
    (htables : (classes.map (·.routingTable)).Nodup) (e : Daemon.Event) :
    Follows host classes (r.feed host classes e) := by
  have hapi (answers : Answers) (e : ConsumerApiServer.Event) :
      Follows host classes ⟨r.daemon.handleApi host answers e, r.uses ++ []⟩ := by
    refine ⟨h.config_mem, h.ownIface, ?_⟩
    simpa [Daemon.handleApi, foldl_applyEffect_routes] using h.routes
  cases e with
  | wpa i ev answers =>
    simp only [TracedDaemon.feed, Daemon.step, Daemon.tableUses]
    cases hm : r.daemon.fsms[i]? with
    | none => simpa using h
    | some m =>
      have hmem := List.mem_of_getElem? hm
      have hcls := h.config_mem m hmem
      have hev : ({ ev with iface := m.config.wifiIface } : WpaEvent).iface = m.config.wifiIface :=
        rfl
      obtain ⟨hconfig, hown, hcalls⟩ := (h.ownIface m hmem).onWpaEvent hev
      refine ⟨fun m' hm' => ?_, fun m' hm' => ?_,
        foldl_onCallback_follow htables hcls hcalls h.routes⟩
      · rcases List.mem_or_eq_of_mem_set hm' with hm' | rfl
        · exact h.config_mem m' hm'
        · rwa [hconfig]
      · rcases List.mem_or_eq_of_mem_set hm' with hm' | rfl
        · exact h.ownIface m' hm'
        · exact hown
  | connect fd => exact hapi {} (.connect fd)
  | message fd msg answers => exact hapi answers (.message fd msg)
  | disconnect fd answers => exact hapi answers (.disconnect fd)
  | exit pid =>
    have hroutes := h.routes
    exact ⟨h.config_mem, h.ownIface,
      by simpa [TracedDaemon.feed, Daemon.step, Daemon.tableUses] using hroutes⟩

/-- In every state of a run, the tables with an installed route are those outstanding in the log
of what the daemon did to them. -/
theorem follows_throughout {k : Kernel} (htables : (classes.map (·.routingTable)).Nodup)
    (hk : ∀ table, NoneInstalled (k.routes table)) (events : List Daemon.Event) :
    Throughout (feed host classes) (Follows host classes) ⟨.start classes k, []⟩ events :=
  throughout_of_invariant (fun _ e h => h.feed htables e) (follows_start hk) events

end TracedDaemon
end WifiOffload
