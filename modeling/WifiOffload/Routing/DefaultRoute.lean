import WifiOffload.Config.Accepted
import WifiOffload.Kernel.Netlink

/-!
# Default routes of a path

`addDefaultRoute` and `removeDefaultRoute` of `routing_policy_manager.cpp`. The add replaces the
first default route of the table, whatever device it uses, and the delete removes the route of a
device: a table that already had a default route loses it in between and does not get it back.
-/

namespace WifiOffload

inductive RouteMsgType where
  | newRoute | delRoute
  deriving DecidableEq, Repr

/-- `sendRouteMsg`; a new route is sent with `NLM_F_CREATE | NLM_F_REPLACE`. -/
def sendRouteMsg (fault : Option NetlinkFault) (gwAddr ifindex table : UInt32) :
    RouteMsgType → Attempt Kernel RoutingError
  | .newRoute => exchange fault .eexist fun k => k.newRoute table ⟨ifindex, gwAddr, true⟩
  | .delRoute => exchange fault .enoent fun k => k.delRoute table ifindex

def addDefaultRoute (host : Host) (fault : Option NetlinkFault) (iface : Bytes)
    (gwAddr routingTable : UInt32) : Attempt Kernel RoutingError :=
  if host.ifindex iface = 0 then Attempt.fail .netlinkError
  else sendRouteMsg fault gwAddr (host.ifindex iface) routingTable .newRoute

/-- An interface that is gone counts as success. -/
def removeDefaultRoute (host : Host) (fault : Option NetlinkFault) (iface : Bytes)
    (routingTable : UInt32) : Attempt Kernel RoutingError :=
  if host.ifindex iface = 0 then Attempt.succeed id
  else sendRouteMsg fault 0 (host.ifindex iface) routingTable .delRoute

variable {host : Host} {k : Kernel} {iface : Bytes} {gwAddr table : UInt32}

theorem addDefaultRoute_unknown (h : host.ifindex iface = 0) :
    addDefaultRoute host none iface gwAddr table k = ⟨k, some .netlinkError⟩ := by
  simp [addDefaultRoute, h, Attempt.fail]

theorem addDefaultRoute_known (h : host.ifindex iface ≠ 0) :
    addDefaultRoute host none iface gwAddr table k =
      ⟨k.setRoutes table (⟨host.ifindex iface, gwAddr, true⟩ :: (k.routes table).tail), none⟩ := by
  rw [addDefaultRoute, if_neg h, sendRouteMsg]
  exact exchange_of_ok rfl

theorem removeDefaultRoute_unknown (h : host.ifindex iface = 0) :
    removeDefaultRoute host none iface table k = ⟨k, none⟩ := by
  simp [removeDefaultRoute, h, Attempt.succeed]

/-- The kernel a removal leaves, whether or not the device had a route. -/
theorem removeDefaultRoute_known (h : host.ifindex iface ≠ 0) :
    (removeDefaultRoute host none iface table k).state =
      k.setRoutes table ((k.routes table).eraseP (·.dev = host.ifindex iface)) := by
  rw [removeDefaultRoute, if_neg h, sendRouteMsg]
  by_cases hany : (k.routes table).any (·.dev = host.ifindex iface)
  · have hdel : k.delRoute table (host.ifindex iface) =
        .ok (k.setRoutes table ((k.routes table).eraseP (·.dev = host.ifindex iface))) := by
      rw [Kernel.delRoute, if_pos hany]
    rw [exchange_of_ok hdel]
  · have hdel : k.delRoute table (host.ifindex iface) = .error .esrch := by
      rw [Kernel.delRoute, if_neg hany]
    have hnone : ∀ r ∈ k.routes table, ¬ (decide (r.dev = host.ifindex iface) = true) := by
      intro r hr hdev
      exact hany (List.any_eq_true.mpr ⟨r, hr, hdev⟩)
    rw [List.eraseP_of_forall_not hnone]
    simp [exchange, hdel, Kernel.setRoutes]

/-- A path that goes up and down leaves a table with all its default routes but the first. -/
theorem remove_after_add_routes (h : host.ifindex iface ≠ 0) :
    (removeDefaultRoute host none iface table
      (addDefaultRoute host none iface gwAddr table k).state).state.routes table =
      (k.routes table).tail := by
  rw [removeDefaultRoute_known h, addDefaultRoute_known h]
  simp [Kernel.setRoutes]

/-- Up and down again keep the table, and in between the routes through other devices. -/
def RoutesPreserved (host : Host) (k : Kernel) (iface : Bytes) (gwAddr table : UInt32) : Prop :=
  let up := (addDefaultRoute host none iface gwAddr table k).state
  let down := (removeDefaultRoute host none iface table up).state
  down.routes table = k.routes table ∧
    ∀ r ∈ k.routes table, r.dev ≠ host.ifindex iface → r ∈ up.routes table

/-- Exactly a table without a default route is preserved, as is every table when the system does
not know the interface. -/
theorem routesPreserved_iff (host : Host) (k : Kernel) (iface : Bytes) (gwAddr table : UInt32) :
    RoutesPreserved host k iface gwAddr table ↔
      host.ifindex iface = 0 ∨ k.routes table = [] := by
  by_cases hif : host.ifindex iface = 0
  · simp only [RoutesPreserved, addDefaultRoute_unknown hif, removeDefaultRoute_unknown hif, hif,
      true_or, iff_true, true_and]
    exact fun r hr _ => hr
  · simp only [RoutesPreserved, remove_after_add_routes hif, hif, false_or]
    cases hroutes : k.routes table with
    | nil => simp
    | cons r rs => simp

/-- Table 100 with its static default route through `eth0.200` loses it when `eth0.100` comes
up, and is empty once it has gone down. -/
theorem static_route_lost :
    ¬ ∀ (host : Host) (k : Kernel) (iface : Bytes) (gwAddr : UInt32)
        (classes : List PathClassConfig), Accepted classes → ∀ cls ∈ classes,
        (∀ r ∈ k.routes cls.routingTable, r.dev ≠ host.ifindex iface) →
        RoutesPreserved host k iface gwAddr cls.routingTable := by
  intro h
  let table : UInt32 := 100
  let k : Kernel := { routes := fun t => if t = table then [⟨5, 0x0100a8c0, false⟩] else [] }
  have hkeep := h vlanHost k (Bytes.ascii "eth0.100") 0x0164a8c0 pathPolicies
    pathPolicies_accepted (pathPolicies.head (by decide)) (by decide) (by decide)
  exact absurd hkeep.1 (by decide)

end WifiOffload
