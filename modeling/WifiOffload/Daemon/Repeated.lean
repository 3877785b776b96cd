import WifiOffload.Mptcp.Endpoints
import WifiOffload.Routing.DefaultRoute
import WifiOffload.Routing.PolicyRules

/-!
# Repeated calls

The netlink operations of the daemon, each made a second time behind a call that succeeded. Each
of the helpers turns one `errno` into success, the one that says that the wanted state is already
there. For a rule that is absent that is `ENOENT`, and for a route `ESRCH`: `sendRouteMsg` checks
for `ENOENT` there too, so that a route which is gone already is reported as an error.
-/

namespace WifiOffload

/-- The loop of `removeIpRules` with what its deletes come to. -/
def deleteIpRules (faults : Nat → Option NetlinkFault) (classes : List PathClassConfig) :
    Attempt Kernel RoutingError :=
  Attempt.eachOn
    (fun i cls => sendNetlinkFwmarkRule (faults i) cls.mark cls.routingTable .delRule) 0 classes

inductive KernelCall where
  | addIpRules
  | removeIpRules
  | addDefaultRoute (iface : Bytes) (gwAddr table : UInt32)
  | removeDefaultRoute (iface : Bytes) (table : UInt32)
  | addEndpoints
  deriving DecidableEq, Repr

namespace KernelCall

/-- Make a call; `faults` are those of the family lookup and of each request in turn. -/
def perform (host : Host) (classes : List PathClassConfig) (faults : EndpointFaults) :
    KernelCall → Attempt Kernel RoutingError
  | .addIpRules => WifiOffload.addIpRules faults.command classes
  | .removeIpRules => deleteIpRules faults.command classes
  | .addDefaultRoute iface gwAddr table =>
    WifiOffload.addDefaultRoute host (faults.command 0) iface gwAddr table
  | .removeDefaultRoute iface table =>
    WifiOffload.removeDefaultRoute host (faults.command 0) iface table
  | .addEndpoints => WifiOffload.addEndpoints host faults classes

/-- Behind a call that succeeded, the same call succeeds and leaves the kernel as it is, and the
route that `removeDefaultRoute` is to remove may be gone already. -/
def Repeatable (host : Host) (classes : List PathClassConfig) (k : Kernel) (call : KernelCall) :
    Prop :=
  (∀ faults, (call.perform host classes faults k).error = none →
    call.perform host classes {} (call.perform host classes faults k).state =
      ⟨(call.perform host classes faults k).state, none⟩) ∧
  ∀ iface table, call = .removeDefaultRoute iface table →
    (∀ r ∈ k.routes table, r.dev ≠ host.ifindex iface) →
    (call.perform host classes {} k).error = none

/-- No rule of a class is there twice, and no route is removed through an interface that exists. -/
def MeetsOneOfEach (host : Host) (classes : List PathClassConfig) (k : Kernel) : KernelCall → Prop
  | .removeIpRules => ∀ cls ∈ classes, k.fwRules.count (classRule cls) ≤ 1
  | .removeDefaultRoute iface _ => host.ifindex iface = 0
  | .addIpRules | .addDefaultRoute .. | .addEndpoints => True

end KernelCall

variable {host : Host} {classes : List PathClassConfig} {k : Kernel}

/-! ## A call that succeeds has met no fault -/

theorem sendNetlinkFwmarkRule_of_success {fault : Option NetlinkFault} {fwmark table : UInt32}
    {msgType : RuleMsgType}
    (h : (sendNetlinkFwmarkRule fault fwmark table msgType k).error = none) :
    sendNetlinkFwmarkRule fault fwmark table msgType k =
      sendNetlinkFwmarkRule none fwmark table msgType k := by
  cases msgType <;> exact exchange_of_success h

theorem addEndpointOf_of_success {fault : Option NetlinkFault} {iface : Bytes}
    (h : (addEndpointOf host fault iface k).error = none) :
    addEndpointOf host fault iface k = addEndpointOf host none iface k := by
  unfold addEndpointOf sendEndpointCmd at h ⊢
  split_ifs at h ⊢
  · rfl
  · rfl
  · exact exchange_of_success h

theorem KernelCall.perform_of_success {faults : EndpointFaults} {call : KernelCall}
    (h : (call.perform host classes faults k).error = none) :
    call.perform host classes faults k = call.perform host classes {} k := by
  cases call with
  | addIpRules =>
    exact Attempt.eachFrom_eq_of_ok (fun _ _ _ hok => sendNetlinkFwmarkRule_of_success hok) h
  | removeIpRules =>
    exact Attempt.eachOn_eq_of_ok (fun _ _ _ hok => sendNetlinkFwmarkRule_of_success hok) h
  | addDefaultRoute iface gwAddr table =>
    simp only [perform, WifiOffload.addDefaultRoute, sendRouteMsg] at h ⊢
    split_ifs at h ⊢
    · rfl
    · exact exchange_of_success h
  | removeDefaultRoute iface table =>
    simp only [perform, WifiOffload.removeDefaultRoute, sendRouteMsg] at h ⊢
    split_ifs at h ⊢
    · rfl
    · exact exchange_of_success h
  | addEndpoints =>
    simp only [perform, WifiOffload.addEndpoints] at h ⊢
    cases hfamily : faults.family with
    | true => simp [hfamily, Attempt.fail] at h
    | false =>
      rw [hfamily, if_neg (by simp)] at h
      simpa using Attempt.eachFrom_eq_of_ok (fun _ _ _ hok => addEndpointOf_of_success hok) h

/-! ## Rules -/

/-- Where every class has its rule, an add finds nothing to do. -/
theorem addIpRules_of_all (h : ∀ cls ∈ classes, classRule cls ∈ k.fwRules) :
    addIpRules (fun _ => none) classes k = ⟨k, none⟩ :=
  Attempt.eachFrom_eq_self
    (fun _ cls hcls => exchange_of_tolerated (newRule_of_mem (h cls hcls))) 0

/-- Without faults the deletes all count as done. -/
theorem deleteIpRules_ok (classes : List PathClassConfig) (k : Kernel) :
    deleteIpRules (fun _ => none) classes k = ⟨removeIpRules classes k, none⟩ := by
  have hdelete (_ : Nat) (cls : PathClassConfig) (k : Kernel) :
      sendNetlinkFwmarkRule none cls.mark cls.routingTable .delRule k =
        ⟨(sendNetlinkFwmarkRule none cls.mark cls.routingTable .delRule k).state, none⟩ := by
    rw [sendDelRule]
  exact Attempt.eachOn_of_ok hdelete 0 classes k

theorem diff_eq_self_iff {rules asked : List FwRule} :
    rules.diff asked = rules ↔ ∀ r ∈ asked, r ∉ rules := by
  constructor
  · intro heq r hr hmem
    have hcount : rules.count r = rules.count r - asked.count r := by
      conv_lhs => rw [← heq]
      exact List.count_diff r rules asked
    have hasked : 0 < asked.count r := List.count_pos_iff.mpr hr
    have hrules : 0 < rules.count r := List.count_pos_iff.mpr hmem
    omega
  · intro h
    induction asked with
    | nil => rfl
    | cons r asked ih =>
      rw [List.diff_cons, List.erase_of_not_mem (h r (by simp))]
      exact ih fun q hq => h q (by simp [hq])

/-- The deletes leave a rule of a class only where it was there more than once. -/
theorem removeIpRules_again_iff (hwf : (classes.map classRule).Nodup) :
    removeIpRules classes (removeIpRules classes k) = removeIpRules classes k ↔
      ∀ cls ∈ classes, k.fwRules.count (classRule cls) ≤ 1 := by
  have hsame : removeIpRules classes (removeIpRules classes k) = removeIpRules classes k ↔
      (k.fwRules.diff (classes.map classRule)).diff (classes.map classRule) =
        k.fwRules.diff (classes.map classRule) := by
    simp [removeIpRules_state]
  rw [hsame, diff_eq_self_iff, List.forall_mem_map]
  refine forall₂_congr fun cls hcls => ?_
  have hone : (classes.map classRule).count (classRule cls) = 1 :=
    List.count_eq_one_of_mem hwf (List.mem_map.mpr ⟨cls, hcls, rfl⟩)
  rw [← List.count_eq_zero, List.count_diff, hone]
  omega

/-- Accepted classes have rules of their own. -/
theorem Accepted.classRules_nodup (h : Accepted classes) : (classes.map classRule).Nodup :=
  List.Nodup.of_map FwRule.fwmark (by
    simpa [Function.comp_def, classRule] using h.wellFormed.marks_nodup)

/-! ## Routes -/

/-- The route that was put in is replaced by itself. -/
theorem addDefaultRoute_again {iface : Bytes} {gwAddr table : UInt32} (h : host.ifindex iface ≠ 0) :
    addDefaultRoute host none iface gwAddr table
        (addDefaultRoute host none iface gwAddr table k).state =
      ⟨(addDefaultRoute host none iface gwAddr table k).state, none⟩ := by
  rw [addDefaultRoute_known h, addDefaultRoute_known h]
  simp [Kernel.setRoutes]

/-- A removal through an interface that exists succeeds exactly where it finds a route. -/
theorem removeDefaultRoute_ok_iff {iface : Bytes} {table : UInt32} (h : host.ifindex iface ≠ 0) :
    (removeDefaultRoute host none iface table k).error = none ↔
      ∃ r ∈ k.routes table, r.dev = host.ifindex iface := by
  have hany : (k.routes table).any (·.dev = host.ifindex iface) = true ↔
      ∃ r ∈ k.routes table, r.dev = host.ifindex iface := by simp
  rw [removeDefaultRoute, if_neg h, sendRouteMsg, ← hany]
  cases hroute : (k.routes table).any (·.dev = host.ifindex iface) with
  | true => simp [exchange, Kernel.delRoute, hroute]
  | false => simp [exchange, Kernel.delRoute, hroute]

/-- No removal can be repeated: the next one finds no route, or another one that it removes. -/
theorem removeDefaultRoute_not_again {iface : Bytes} {table : UInt32}
    (h : host.ifindex iface ≠ 0) :
    removeDefaultRoute host none iface table (removeDefaultRoute host none iface table k).state ≠
      ⟨(removeDefaultRoute host none iface table k).state, none⟩ := by
  intro hagain
  obtain ⟨r, hr, hdev⟩ := (removeDefaultRoute_ok_iff h).mp (congrArg (·.error) hagain)
  have hstate := congrArg (fun o => o.state.routes table) hagain
  simp only [removeDefaultRoute_known h, Kernel.setRoutes, Function.update_self] at hr hstate
  have hlength := List.length_eraseP_of_mem (p := fun x => decide (x.dev = host.ifindex iface)) hr
    (by simpa using hdev)
  rw [hstate] at hlength
  have hpos := List.length_pos_of_mem hr
  omega

/-! ## Endpoints -/

/-- Where every address has its endpoint, the set-up finds nothing to do. -/
theorem addEndpoints_of_all (h : ∀ iface ∈ endpointIfaces classes,
    ¬ CommandFails host none iface ∧ (ReachesKernel host none iface → HasEndpoint host k iface)) :
    addEndpoints host {} classes k = ⟨k, none⟩ := by
  refine Attempt.eachFrom_eq_self (fun _ iface hiface => ?_) 0
  obtain ⟨herror, hsame, -⟩ := addEndpointOf_spec host none iface k
  obtain ⟨hfails, hknown⟩ := h iface hiface
  exact Attempt.Outcome.ext (hsame hknown) (herror.mpr hfails)

/-- A set-up that goes through leaves every address with an endpoint. -/
theorem all_of_addEndpoints_ok (h : (addEndpoints host {} classes k).error = none) :
    ∀ iface ∈ endpointIfaces classes, ¬ CommandFails host none iface ∧
      (ReachesKernel host none iface →
        HasEndpoint host (addEndpoints host {} classes k).state iface) := by
  refine Attempt.eachFrom_invariant (P := fun done s => ∀ iface ∈ done,
    ¬ CommandFails host none iface ∧ (ReachesKernel host none iface → HasEndpoint host s iface))
    ?_ 0 [] (by simp) h
  intro _ iface _ done s hdone hok f hf
  have hfails : ¬ CommandFails host none iface :=
    (addEndpointOf_spec host none iface s).1.mp hok
  rcases addEndpointOf_state_cases host none iface s with ⟨hknown, heq⟩ | ⟨-, -, heq⟩
  · rw [heq]
    rcases List.mem_append.mp hf with hf | hf
    · exact hdone f hf
    · rw [List.mem_singleton.mp hf]
      exact ⟨hfails, hknown⟩
  · rw [heq]
    rcases List.mem_append.mp hf with hf | hf
    · exact ⟨(hdone f hf).1,
        fun hreach => hasEndpoint_append_iff.mpr (.inl ((hdone f hf).2 hreach))⟩
    · rw [List.mem_singleton.mp hf]
      exact ⟨hfails, fun _ => hasEndpoint_append_iff.mpr (.inr rfl)⟩

/-! ## The five calls -/

namespace KernelCall

/-- Faults play no part in it. -/
theorem repeatable_iff_without_faults {call : KernelCall} : call.Repeatable host classes k ↔
    ((call.perform host classes {} k).error = none →
      call.perform host classes {} (call.perform host classes {} k).state =
        ⟨(call.perform host classes {} k).state, none⟩) ∧
    ∀ iface table, call = .removeDefaultRoute iface table →
      (∀ r ∈ k.routes table, r.dev ≠ host.ifindex iface) →
      (call.perform host classes {} k).error = none := by
  refine and_congr_left fun _ => ⟨fun h => h {}, fun h faults hok => ?_⟩
  rw [perform_of_success hok]
  exact h (perform_of_success hok ▸ hok)

/-- With accepted classes, a second call is as good as none exactly where no rule that is to be
removed is there twice, and for `removeDefaultRoute` through no interface that exists. -/
theorem repeatable_iff (hacc : Accepted classes) (host : Host) (k : Kernel) (call : KernelCall) :
    call.Repeatable host classes k ↔ call.MeetsOneOfEach host classes k := by
  rw [repeatable_iff_without_faults]
  cases call with
  | addIpRules =>
    refine iff_of_true ⟨fun hok => ?_, fun _ _ h => by cases h⟩ trivial
    exact addIpRules_of_all fun cls hcls =>
      (mem_fwRules_of_addIpRules_ok hok).mpr (.inr ⟨cls, hcls, rfl⟩)
  | removeIpRules =>
    simp only [perform, deleteIpRules_ok, MeetsOneOfEach]
    rw [← removeIpRules_again_iff hacc.classRules_nodup]
    simp
  | addDefaultRoute iface gwAddr table =>
    refine iff_of_true ⟨fun hok => ?_, fun _ _ h => by cases h⟩ trivial
    refine addDefaultRoute_again fun hif => ?_
    simp [perform, addDefaultRoute_unknown hif] at hok
  | removeDefaultRoute iface table =>
    by_cases hif : host.ifindex iface = 0
    · refine iff_of_true ⟨fun _ => ?_, fun _ _ _ _ => ?_⟩ hif
      · simp [perform, removeDefaultRoute_unknown hif]
      · simp [perform, removeDefaultRoute_unknown hif]
    · refine iff_of_false ?_ hif
      rintro ⟨hagain, hgone⟩
      by_cases hroute : ∃ r ∈ k.routes table, r.dev = host.ifindex iface
      · exact removeDefaultRoute_not_again hif
          (hagain ((removeDefaultRoute_ok_iff hif).mpr hroute))
      · refine hroute ((removeDefaultRoute_ok_iff hif).mp (hgone iface table rfl ?_))
        simpa using hroute
  | addEndpoints =>
    refine iff_of_true ⟨fun hok => ?_, fun _ _ h => by cases h⟩ trivial
    exact addEndpoints_of_all (all_of_addEndpoints_ok hok)

/-- The rules of the shipped classes can be removed twice. -/
theorem repeatable_removeIpRules :
    KernelCall.removeIpRules.Repeatable vlanHost pathPolicies
      { fwRules := pathPolicies.map classRule } :=
  (repeatable_iff pathPolicies_accepted vlanHost _ .removeIpRules).mpr
    (show ∀ cls ∈ pathPolicies, (pathPolicies.map classRule).count (classRule cls) ≤ 1 by decide)

/-- The first removal takes the route of `eth0.100` out of table 100, and the second reports an
error, as does one behind a kernel that has dropped the route. -/
theorem second_removal_fails :
    let iface := Bytes.ascii "eth0.100"
    let k : Kernel := { routes := fun t => if t = 100 then [⟨4, 0x0164a8c0, true⟩] else [] }
    let removed := (removeDefaultRoute iface 100).perform vlanHost pathPolicies {} k
    removed.error = none ∧
      ((removeDefaultRoute iface 100).perform vlanHost pathPolicies {} removed.state).error =
        some .netlinkError ∧
      ¬ (removeDefaultRoute iface 100).Repeatable vlanHost pathPolicies k := by
  intro iface k removed
  have hfails : ((removeDefaultRoute iface 100).perform vlanHost pathPolicies {}
      removed.state).error = some .netlinkError := by decide
  refine ⟨by decide, hfails, fun hrepeat => ?_⟩
  have hagain := hrepeat.1 {} (by decide)
  rw [hagain] at hfails
  cases hfails

end KernelCall
end WifiOffload
