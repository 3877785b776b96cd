import WifiOffload.Config.Accepted
import WifiOffload.Mptcp.Endpoints

/-!
# Refused endpoints

The endpoint set-up where the kernel refuses the command for some of the interfaces. The two loops
end at the first command that fails, so what gets its endpoint is what stands before it: an
interface behind a refused one has an endpoint only if there was one for its address already, or
one before the refusal shares it.
-/

namespace WifiOffload

/-- A request that the kernel refuses ends as one that does not get to it. -/
theorem exchange_of_refused {tolerated e : Errno} {request refusing : Kernel → Except Errno Kernel}
    {k : Kernel} (hrefused : refusing k = .error e) (he : e ≠ tolerated) :
    exchange none tolerated refusing k = exchange (some .notSent) tolerated request k := by
  simp [exchange, hrefused, he]

/-- The fault of the command for an interface, where the kernel refuses those in `refused`. -/
def refusal (refused : Bytes → Bool) (iface : Bytes) : Option NetlinkFault :=
  if refused iface then some .notSent else none

/-- The family is there, and the kernel refuses the commands for the interfaces in `refused`. -/
def refusals (refused : Bytes → Bool) (classes : List PathClassConfig) : EndpointFaults where
  command i := (endpointIfaces classes)[i]?.bind (refusal refused)

/-- The interface has an address, and the kernel accepts its command. -/
def CommandAccepted (host : Host) (refused : Bytes → Bool) (iface : Bytes) : Prop :=
  host.addr4 iface ≠ 0 ∧ host.ifindex iface ≠ 0 ∧ refused iface = false

/-- Each interface of a class with MPTCP whose own command the kernel accepts has its endpoint, and
no endpoint is added for another interface. -/
def SparesOthers (host : Host) (refused : Bytes → Bool) (classes : List PathClassConfig)
    (k : Kernel) : Prop :=
  let after := (addEndpoints host (refusals refused classes) classes k).state
  (∀ cls ∈ classes, cls.mptcpEnabled = true → ∀ iface ∈ cls.interfaces,
    CommandAccepted host refused iface → HasEndpoint host after iface) ∧
  ∀ e ∈ after.endpoints, e ∈ k.endpoints ∨ ∃ cls ∈ classes, cls.mptcpEnabled = true ∧
    ∃ iface ∈ cls.interfaces, e = ⟨host.addr4 iface, host.ifindex iface⟩

/-- The interfaces that the loops come to before a command fails. -/
def beforeFailure (host : Host) (refused : Bytes → Bool) (ifaces : List Bytes) : List Bytes :=
  ifaces.takeWhile fun g => ¬ CommandFails host (refusal refused g) g

/-- An interface whose command the kernel would accept has an endpoint for its address, or an
interface with this address stands before all commands that fail. -/
def ComesFirst (host : Host) (refused : Bytes → Bool) (classes : List PathClassConfig)
    (k : Kernel) : Prop :=
  ∀ iface ∈ endpointIfaces classes, CommandAccepted host refused iface →
    HasEndpoint host k iface ∨
      ∃ g ∈ beforeFailure host refused (endpointIfaces classes), host.addr4 g = host.addr4 iface

variable {host : Host} {refused : Bytes → Bool} {classes : List PathClassConfig} {k : Kernel}

theorem mem_endpointIfaces {iface : Bytes} : iface ∈ endpointIfaces classes ↔
    ∃ cls ∈ classes, cls.mptcpEnabled = true ∧ iface ∈ cls.interfaces := by
  simp [endpointIfaces, and_assoc]

/-- The set-up as a loop whose turns depend on their interface alone. -/
theorem addEndpoints_refusals : addEndpoints host (refusals refused classes) classes =
    Attempt.eachFrom (fun _ iface => addEndpointOf host (refusal refused iface) iface) 0
      (endpointIfaces classes) := by
  refine Attempt.eachFrom_congr fun j iface hiface => ?_
  simp [refusals, hiface]

/-- A command that the kernel refuses, or that is not made for want of an interface, adds
nothing. -/
theorem not_reachesKernel_of_fails {iface : Bytes}
    (h : CommandFails host (refusal refused iface) iface) :
    ¬ ReachesKernel host (refusal refused iface) iface := by
  rintro ⟨-, hif, hsent⟩
  rcases h.2 with hunknown | hfault
  · exact hif hunknown
  · unfold refusal at hsent hfault
    split_ifs at hsent hfault
    · exact hsent rfl
    · exact hfault rfl

theorem reachesKernel_of_not_fails {iface : Bytes} (haddr : host.addr4 iface ≠ 0)
    (h : ¬ CommandFails host (refusal refused iface) iface) :
    ReachesKernel host (refusal refused iface) iface := by
  simp only [CommandFails, not_and, not_or, not_not] at h
  obtain ⟨hif, hfault⟩ := h haddr
  exact ⟨haddr, hif, by simp [hfault]⟩

/-- An address has an endpoint behind the loop where it had one, or where an interface with this
address comes before the first command that fails. -/
theorem hasEndpoint_eachFrom_iff {iface : Bytes} (haddr : host.addr4 iface ≠ 0) (i : Nat)
    (ifaces : List Bytes) (k : Kernel) :
    HasEndpoint host (Attempt.eachFrom
        (fun _ iface => addEndpointOf host (refusal refused iface) iface) i ifaces k).state iface ↔
      HasEndpoint host k iface ∨
        ∃ g ∈ beforeFailure host refused ifaces, host.addr4 g = host.addr4 iface := by
  induction ifaces generalizing i k with
  | nil => simp [beforeFailure]
  | cons g ifaces ih =>
    obtain ⟨herror, hsame, -⟩ := addEndpointOf_spec host (refusal refused g) g k
    rw [Attempt.eachFrom_cons, beforeFailure, List.takeWhile_cons]
    by_cases hfails : CommandFails host (refusal refused g) g
    · -- the loops end here
      obtain ⟨e, he⟩ := Option.ne_none_iff_exists'.mp fun h => herror.mp h hfails
      rw [Attempt.andThen_of_error he, hsame fun h => absurd h (not_reachesKernel_of_fails hfails)]
      simp [hfails]
    · rw [Attempt.andThen_of_ok (herror.mpr hfails), ih, if_pos (by simpa using hfails)]
      have hbefore : (∃ f ∈ g :: beforeFailure host refused ifaces,
            host.addr4 f = host.addr4 iface) ↔ host.addr4 g = host.addr4 iface ∨
          ∃ f ∈ beforeFailure host refused ifaces, host.addr4 f = host.addr4 iface := by simp
      have hturn : HasEndpoint host (addEndpointOf host (refusal refused g) g k).state iface ↔
          HasEndpoint host k iface ∨ host.addr4 g = host.addr4 iface := by
        rcases addEndpointOf_state_cases host (refusal refused g) g k with
          ⟨hknown, heq⟩ | ⟨-, -, heq⟩
        · rw [heq, iff_self_or]
          intro hsame
          obtain ⟨e, he, hg⟩ := hknown (reachesKernel_of_not_fails (hsame ▸ haddr) hfails)
          exact ⟨e, he, hg.trans hsame⟩
        · rw [heq, hasEndpoint_append_iff]
      rw [hturn, ← beforeFailure, hbefore, or_assoc]

/-- The loops add endpoints of their own interfaces only. -/
theorem mem_endpoints_of_addEndpoints {faults : EndpointFaults} {e : Endpoint}
    (he : e ∈ (addEndpoints host faults classes k).state.endpoints) :
    e ∈ k.endpoints ∨
      ∃ iface ∈ endpointIfaces classes, e = ⟨host.addr4 iface, host.ifindex iface⟩ := by
  unfold addEndpoints at he
  split at he
  · exact .inl he
  · refine Attempt.eachFrom_preserves (s := k) (P := fun s : Kernel => ∀ e ∈ s.endpoints,
      e ∈ k.endpoints ∨
        ∃ iface ∈ endpointIfaces classes, e = ⟨host.addr4 iface, host.ifindex iface⟩)
      ?_ 0 (fun e he => .inl he) e he
    intro i iface hiface s hs e he
    rcases addEndpointOf_state_cases host (faults.command i) iface s with ⟨-, heq⟩ | ⟨-, -, heq⟩
    · rw [heq] at he
      exact hs e he
    · rw [heq] at he
      rcases List.mem_append.mp he with he | he
      · exact hs e he
      · exact .inr ⟨iface, hiface, List.mem_singleton.mp he⟩

/-- No interface goes without its endpoint through the fault of another one, exactly where each
that the kernel accepts comes before all commands that fail, or needs none of its own. -/
theorem sparesOthers_iff (host : Host) (refused : Bytes → Bool) (classes : List PathClassConfig)
    (k : Kernel) : SparesOthers host refused classes k ↔ ComesFirst host refused classes k := by
  have hadded : ∀ e ∈ (addEndpoints host (refusals refused classes) classes k).state.endpoints,
      e ∈ k.endpoints ∨ ∃ cls ∈ classes, cls.mptcpEnabled = true ∧
        ∃ iface ∈ cls.interfaces, e = ⟨host.addr4 iface, host.ifindex iface⟩ := by
    intro e he
    refine (mem_endpoints_of_addEndpoints he).imp_right ?_
    rintro ⟨iface, hiface, rfl⟩
    obtain ⟨cls, hcls, hmptcp, hmem⟩ := mem_endpointIfaces.mp hiface
    exact ⟨cls, hcls, hmptcp, iface, hmem, rfl⟩
  have heach (iface : Bytes) (haccepted : CommandAccepted host refused iface) :
      HasEndpoint host (addEndpoints host (refusals refused classes) classes k).state iface ↔
        HasEndpoint host k iface ∨ ∃ g ∈ beforeFailure host refused (endpointIfaces classes),
          host.addr4 g = host.addr4 iface := by
    rw [addEndpoints_refusals]
    exact hasEndpoint_eachFrom_iff haccepted.1 0 (endpointIfaces classes) k
  constructor
  · rintro ⟨hall, -⟩ iface hiface haccepted
    obtain ⟨cls, hcls, hmptcp, hmem⟩ := mem_endpointIfaces.mp hiface
    exact (heach iface haccepted).mp (hall cls hcls hmptcp iface hmem haccepted)
  · intro hfirst
    refine ⟨fun cls hcls hmptcp iface hmem haccepted => (heach iface haccepted).mpr ?_, hadded⟩
    exact hfirst iface (mem_endpointIfaces.mpr ⟨cls, hcls, hmptcp, hmem⟩) haccepted

/-- The kernel refuses the endpoint of `eth0.100`, and `eth0.200` gets none either. -/
theorem refusal_costs_next_interface :
    let host : Host :=
      { vlanHost with
        ifaceAddr4 := fun name =>
          if name = Bytes.ascii "eth0.100" then 0x0264a8c0
          else if name = Bytes.ascii "eth0.200" then 0x02c8a8c0 else 0 }
    let refused := fun iface => iface == Bytes.ascii "eth0.100"
    CommandAccepted host refused (Bytes.ascii "eth0.200") ∧
      (addEndpoints host (refusals refused pathPolicies) pathPolicies {}).state.endpoints = [] ∧
      ¬ SparesOthers host refused pathPolicies {} := by
  intro host refused
  have haccepted : CommandAccepted host refused (Bytes.ascii "eth0.200") := by
    refine ⟨?_, ?_, ?_⟩ <;> decide
  have hnone : (addEndpoints host (refusals refused pathPolicies) pathPolicies {}).state.endpoints =
      [] := by decide
  refine ⟨haccepted, hnone, fun h => ?_⟩
  obtain ⟨e, he, -⟩ := h.1 (pathPolicies.head (by decide)) (by decide) rfl
    (Bytes.ascii "eth0.200") (by decide) haccepted
  rw [hnone] at he
  cases he

end WifiOffload
