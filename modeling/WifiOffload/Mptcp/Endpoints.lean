import WifiOffload.Kernel.Netlink

/-!
# MPTCP endpoints

`MptcpManager`: one endpoint for the IPv4 address of every interface of the classes with MPTCP.
An address that has an endpoint already counts as done; the removal flushes all endpoints.
-/

namespace WifiOffload

/-- Where the environment lets the endpoint set-up fail: when the netlink family is resolved, or
at a command. -/
structure EndpointFaults where
  family : Bool := false
  command : Nat → Option NetlinkFault := fun _ => none

/-- `sendEndpointCmd` with `MPTCP_PM_CMD_ADD_ADDR`, the only command it is called with. -/
def sendEndpointCmd (host : Host) (fault : Option NetlinkFault) (iface : Bytes) (addr4 : UInt32) :
    Attempt Kernel RoutingError :=
  if host.ifindex iface = 0 then Attempt.fail .netlinkError
  else exchange fault .eexist fun k => k.addEndpoint ⟨addr4, host.ifindex iface⟩

/-- The interfaces that the two loops of `addEndpoints` go through. -/
def endpointIfaces (classes : List PathClassConfig) : List Bytes :=
  (classes.filter (·.mptcpEnabled)).flatMap (·.interfaces)

/-- The body of the loops: an interface without an address is skipped. -/
def addEndpointOf (host : Host) (fault : Option NetlinkFault) (iface : Bytes) :
    Attempt Kernel RoutingError :=
  if host.addr4 iface = 0 then Attempt.succeed id
  else sendEndpointCmd host fault iface (host.addr4 iface)

def addEndpoints (host : Host) (faults : EndpointFaults) (classes : List PathClassConfig) :
    Attempt Kernel RoutingError :=
  if faults.family then Attempt.fail .netlinkError
  else Attempt.eachFrom (fun i iface => addEndpointOf host (faults.command i) iface) 0
    (endpointIfaces classes)

/-- `removeEndpoints`: `MPTCP_PM_CMD_FLUSH_ADDRS`. -/
def removeEndpoints (k : Kernel) : Kernel := k.flushEndpoints

/-! ## Which commands add something -/

/-- The command for an interface gets to the kernel. -/
def ReachesKernel (host : Host) (fault : Option NetlinkFault) (iface : Bytes) : Prop :=
  host.addr4 iface ≠ 0 ∧ host.ifindex iface ≠ 0 ∧ fault ≠ some .notSent

/-- The command for an interface is made and reported as failed. -/
def CommandFails (host : Host) (fault : Option NetlinkFault) (iface : Bytes) : Prop :=
  host.addr4 iface ≠ 0 ∧ (host.ifindex iface = 0 ∨ fault ≠ none)

instance (host : Host) (fault : Option NetlinkFault) (iface : Bytes) :
    Decidable (ReachesKernel host fault iface) := inferInstanceAs (Decidable (_ ∧ _ ∧ _))

instance (host : Host) (fault : Option NetlinkFault) (iface : Bytes) :
    Decidable (CommandFails host fault iface) := inferInstanceAs (Decidable (_ ∧ _))

def HasEndpoint (host : Host) (k : Kernel) (iface : Bytes) : Prop :=
  ∃ e ∈ k.endpoints, e.addr4 = host.addr4 iface

/-- Every command that gets to the kernel, up to the first one that fails, is for an address
that has an endpoint. -/
def AddsNothing (host : Host) (faults : Nat → Option NetlinkFault) (k : Kernel) :
    Nat → List Bytes → Prop
  | _, [] => True
  | i, iface :: ifaces =>
    (ReachesKernel host (faults i) iface → HasEndpoint host k iface) ∧
      (¬ CommandFails host (faults i) iface → AddsNothing host faults k (i + 1) ifaces)

variable {host : Host} {k : Kernel}

theorem addsNothing_congr {k' : Kernel} (h : k'.endpoints = k.endpoints)
    {faults : Nat → Option NetlinkFault} {i : Nat} {ifaces : List Bytes} :
    AddsNothing host faults k' i ifaces ↔ AddsNothing host faults k i ifaces := by
  induction ifaces generalizing i with
  | nil => rfl
  | cons iface ifaces ih => rw [AddsNothing, AddsNothing, ih, HasEndpoint, HasEndpoint, h]

theorem addEndpoint_of_hasEndpoint {iface : Bytes} (h : HasEndpoint host k iface) :
    k.addEndpoint ⟨host.addr4 iface, host.ifindex iface⟩ = .error .eexist := by
  obtain ⟨e, he, haddr⟩ := h
  exact if_pos (List.any_eq_true.mpr ⟨e, he, decide_eq_true haddr⟩)

theorem addEndpoint_of_not_hasEndpoint {iface : Bytes} (h : ¬ HasEndpoint host k iface) :
    k.addEndpoint ⟨host.addr4 iface, host.ifindex iface⟩ =
      .ok { k with endpoints := k.endpoints ++ [⟨host.addr4 iface, host.ifindex iface⟩] } := by
  refine if_neg fun hany => h ?_
  obtain ⟨e, he, haddr⟩ := List.any_eq_true.mp hany
  exact ⟨e, he, of_decide_eq_true haddr⟩

/-- One turn of the loop, in a kernel that has an endpoint for the address or has not. -/
theorem addEndpointOf_spec (host : Host) (fault : Option NetlinkFault) (iface : Bytes)
    (k : Kernel) :
    ((addEndpointOf host fault iface k).error = none ↔ ¬ CommandFails host fault iface) ∧
    ((ReachesKernel host fault iface → HasEndpoint host k iface) →
      (addEndpointOf host fault iface k).state = k) ∧
    (ReachesKernel host fault iface → ¬ HasEndpoint host k iface →
      (addEndpointOf host fault iface k).state = { k with endpoints :=
        k.endpoints ++ [⟨host.addr4 iface, host.ifindex iface⟩] }) := by
  unfold addEndpointOf sendEndpointCmd ReachesKernel CommandFails
  by_cases haddr : host.addr4 iface = 0
  · simp [haddr]
  by_cases hif : host.ifindex iface = 0
  · simp [haddr, hif]
  rw [if_neg haddr, if_neg hif]
  by_cases hhas : HasEndpoint host k iface
  · have hreq := addEndpoint_of_hasEndpoint hhas
    cases fault with
    | none => simp [exchange, hreq, haddr, hif, hhas]
    | some f => cases f <;> simp [exchange, hreq, haddr, hif, hhas]
  · have hreq := addEndpoint_of_not_hasEndpoint hhas
    cases fault with
    | none => simp [exchange, hreq, haddr, hif, hhas]
    | some f => cases f <;> simp [exchange, hreq, haddr, hif, hhas]

/-- A turn of the loop leaves the kernel as it is, or adds the endpoint that it is for. -/
theorem addEndpointOf_state_cases (host : Host) (fault : Option NetlinkFault) (iface : Bytes)
    (k : Kernel) :
    ((ReachesKernel host fault iface → HasEndpoint host k iface) ∧
      (addEndpointOf host fault iface k).state = k) ∨
    (ReachesKernel host fault iface ∧ ¬ HasEndpoint host k iface ∧
      (addEndpointOf host fault iface k).state = { k with endpoints :=
        k.endpoints ++ [⟨host.addr4 iface, host.ifindex iface⟩] }) := by
  obtain ⟨-, hsame, hnew⟩ := addEndpointOf_spec host fault iface k
  by_cases hadds : ReachesKernel host fault iface ∧ ¬ HasEndpoint host k iface
  · exact .inr ⟨hadds.1, hadds.2, hnew hadds.1 hadds.2⟩
  · have hknown : ReachesKernel host fault iface → HasEndpoint host k iface := by simpa using hadds
    exact .inl ⟨hknown, hsame hknown⟩

theorem hasEndpoint_append_iff {iface g : Bytes} :
    HasEndpoint host
        { k with endpoints := k.endpoints ++ [⟨host.addr4 g, host.ifindex g⟩] } iface ↔
      HasEndpoint host k iface ∨ host.addr4 g = host.addr4 iface := by
  simp only [HasEndpoint, List.mem_append, List.mem_singleton, or_and_right, exists_or,
    exists_eq_left]

/-- The loop adds endpoints behind those that were there, and none exactly when it is asked for
nothing new. -/
theorem eachFrom_addEndpointOf (host : Host) (faults : Nat → Option NetlinkFault) (i : Nat)
    (ifaces : List Bytes) (k : Kernel) : ∃ added,
      (Attempt.eachFrom (fun i iface => addEndpointOf host (faults i) iface) i ifaces k).state =
        { k with endpoints := k.endpoints ++ added } ∧
      (added = [] ↔ AddsNothing host faults k i ifaces) := by
  induction ifaces generalizing i k with
  | nil => exact ⟨[], by simp [AddsNothing]⟩
  | cons iface ifaces ih =>
    obtain ⟨herr, hsame, hnew⟩ := addEndpointOf_spec host (faults i) iface k
    rw [Attempt.eachFrom_cons]
    by_cases hknown : ReachesKernel host (faults i) iface → HasEndpoint host k iface
    · by_cases hfails : CommandFails host (faults i) iface
      · obtain ⟨e, he⟩ := Option.ne_none_iff_exists'.mp (fun h => herr.mp h hfails)
        refine ⟨[], ?_, iff_of_true rfl ⟨hknown, fun h => absurd hfails h⟩⟩
        rw [Attempt.andThen_of_error he, hsame hknown, List.append_nil]
      · obtain ⟨added, hstate, hiff⟩ := ih (i + 1) k
        refine ⟨added, ?_, ?_⟩
        · rw [Attempt.andThen_of_ok (herr.mpr hfails), hsame hknown, hstate]
        · rw [hiff, AddsNothing, and_iff_right hknown, forall_prop_of_true hfails]
    · push Not at hknown
      have hnothing : ¬ AddsNothing host faults k i (iface :: ifaces) :=
        fun h => hknown.2 (h.1 hknown.1)
      have hadd := hnew hknown.1 hknown.2
      by_cases hfails : CommandFails host (faults i) iface
      · obtain ⟨e, he⟩ := Option.ne_none_iff_exists'.mp (fun h => herr.mp h hfails)
        refine ⟨[⟨host.addr4 iface, host.ifindex iface⟩], ?_, by simp [hnothing]⟩
        rw [Attempt.andThen_of_error he, hadd]
      · obtain ⟨added, hstate, -⟩ := ih (i + 1) (addEndpointOf host (faults i) iface k).state
        refine ⟨⟨host.addr4 iface, host.ifindex iface⟩ :: added, ?_, by simp [hnothing]⟩
        rw [Attempt.andThen_of_ok (herr.mpr hfails), hstate, hadd]
        simp

/-- The endpoint set-up without faults adds `e` when it goes through `ifaces`: for an interface
with an address that has no endpoint yet and that no interface before it has, where no command
for an interface before it fails. -/
def Adds (host : Host) (k : Kernel) (ifaces : List Bytes) (e : Endpoint) : Prop :=
  ∃ before iface after, ifaces = before ++ iface :: after ∧
    e = ⟨host.addr4 iface, host.ifindex iface⟩ ∧ host.addr4 iface ≠ 0 ∧ host.ifindex iface ≠ 0 ∧
    ¬ HasEndpoint host k iface ∧
    ∀ g ∈ before, host.addr4 g = 0 ∨ (host.ifindex g ≠ 0 ∧ host.addr4 g ≠ host.addr4 iface)

theorem adds_congr {k' : Kernel} (h : k'.endpoints = k.endpoints) {ifaces : List Bytes}
    {e : Endpoint} : Adds host k' ifaces e ↔ Adds host k ifaces e := by
  simp only [Adds, HasEndpoint, h]

theorem adds_cons {iface : Bytes} {ifaces : List Bytes} {e : Endpoint} :
    Adds host k (iface :: ifaces) e ↔
      (e = ⟨host.addr4 iface, host.ifindex iface⟩ ∧ host.addr4 iface ≠ 0 ∧ host.ifindex iface ≠ 0 ∧
        ¬ HasEndpoint host k iface) ∨
      ((host.addr4 iface = 0 ∨ (host.ifindex iface ≠ 0 ∧ host.addr4 iface ≠ e.addr4)) ∧
        Adds host k ifaces e) := by
  constructor
  · rintro ⟨before, f, after, hsplit, rfl, haddr, hif, hnew, hbefore⟩
    cases before with
    | nil =>
      obtain ⟨rfl, rfl⟩ := List.cons.inj hsplit
      exact .inl ⟨rfl, haddr, hif, hnew⟩
    | cons g before =>
      obtain ⟨rfl, rfl⟩ := List.cons.inj hsplit
      exact .inr ⟨hbefore iface (by simp),
        before, f, after, rfl, rfl, haddr, hif, hnew, fun g hg => hbefore g (by simp [hg])⟩
  · rintro (⟨rfl, haddr, hif, hnew⟩ |
      ⟨hhead, before, f, after, rfl, rfl, haddr, hif, hnew, hbefore⟩)
    · exact ⟨[], iface, ifaces, rfl, rfl, haddr, hif, hnew, fun g hg => by cases hg⟩
    · refine ⟨iface :: before, f, after, rfl, rfl, haddr, hif, hnew, fun g hg => ?_⟩
      rcases List.mem_cons.mp hg with rfl | hg
      · exact hhead
      · exact hbefore g hg

/-- An endpoint that is there already keeps others with its address from being added. -/
theorem adds_addEndpoint {iface : Bytes} {ifaces : List Bytes} {e : Endpoint} :
    Adds host { k with endpoints := k.endpoints ++ [⟨host.addr4 iface, host.ifindex iface⟩] }
        ifaces e ↔ Adds host k ifaces e ∧ host.addr4 iface ≠ e.addr4 := by
  constructor
  · rintro ⟨before, f, after, hsplit, rfl, haddr, hif, hnew, hbefore⟩
    rw [hasEndpoint_append_iff, not_or] at hnew
    exact ⟨⟨before, f, after, hsplit, rfl, haddr, hif, hnew.1, hbefore⟩, hnew.2⟩
  · rintro ⟨⟨before, f, after, hsplit, rfl, haddr, hif, hnew, hbefore⟩, hne⟩
    refine ⟨before, f, after, hsplit, rfl, haddr, hif, ?_, hbefore⟩
    rw [hasEndpoint_append_iff, not_or]
    exact ⟨hnew, hne⟩

theorem Adds.addr4_ne {ifaces : List Bytes} {e : Endpoint} (h : Adds host k ifaces e)
    {iface : Bytes} (hhas : HasEndpoint host k iface) : host.addr4 iface ≠ e.addr4 := by
  obtain ⟨before, f, after, -, rfl, -, -, hnew, -⟩ := h
  intro heq
  obtain ⟨e', he', haddr⟩ := hhas
  exact hnew ⟨e', he', haddr.trans heq⟩

theorem mem_endpoints_eachFrom (host : Host) (i : Nat) (ifaces : List Bytes) (k : Kernel)
    (e : Endpoint) :
    e ∈ (Attempt.eachFrom (fun _ iface => addEndpointOf host none iface) i ifaces
        k).state.endpoints ↔
      e ∈ k.endpoints ∨ Adds host k ifaces e := by
  induction ifaces generalizing i k with
  | nil => simp [Adds]
  | cons iface ifaces ih =>
    obtain ⟨herr, hsame, hnew⟩ := addEndpointOf_spec host none iface k
    rw [Attempt.eachFrom_cons, adds_cons]
    by_cases hfails : CommandFails host none iface
    · obtain ⟨error, herror⟩ := Option.ne_none_iff_exists'.mp (fun h => herr.mp h hfails)
      have hif : host.ifindex iface = 0 := hfails.2.resolve_right (by simp)
      rw [Attempt.andThen_of_error herror, hsame fun h => absurd hif h.2.1]
      simp [hfails.1, hif]
    · rw [Attempt.andThen_of_ok (herr.mpr hfails), ih]
      by_cases hreach : ReachesKernel host none iface
      · by_cases hhas : HasEndpoint host k iface
        · rw [hsame fun _ => hhas]
          have hne {e : Endpoint} (h : Adds host k ifaces e) := h.addr4_ne hhas
          grind [ReachesKernel]
        · rw [hnew hreach hhas, adds_addEndpoint]
          grind [ReachesKernel]
      · rw [hsame fun h => absurd h hreach]
        have haddr : host.addr4 iface = 0 := by
          unfold CommandFails at hfails
          unfold ReachesKernel at hreach
          grind
        simp [haddr]

/-- The endpoints behind a set-up without faults. -/
theorem mem_endpoints_addEndpoints (host : Host) (classes : List PathClassConfig) (k : Kernel)
    (e : Endpoint) : e ∈ (addEndpoints host {} classes k).state.endpoints ↔
      e ∈ k.endpoints ∨ Adds host k (endpointIfaces classes) e :=
  mem_endpoints_eachFrom host 0 (endpointIfaces classes) k e

/-- The endpoint set-up changes nothing but the endpoints, and not even these exactly when the
family cannot be resolved or all addresses it gets to have endpoints. -/
theorem addEndpoints_state (host : Host) (faults : EndpointFaults) (classes : List PathClassConfig)
    (k : Kernel) : ∃ added,
      (addEndpoints host faults classes k).state = { k with endpoints := k.endpoints ++ added } ∧
      (added = [] ↔ faults.family = true ∨
        AddsNothing host faults.command k 0 (endpointIfaces classes)) := by
  unfold addEndpoints
  cases hfamily : faults.family with
  | true => exact ⟨[], by simp⟩
  | false => simpa using eachFrom_addEndpointOf host faults.command 0 (endpointIfaces classes) k

end WifiOffload
