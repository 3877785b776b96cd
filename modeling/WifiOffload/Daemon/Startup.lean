import WifiOffload.Daemon.Restart
import WifiOffload.Mptcp.Endpoints

/-!
# Start-up and its error paths

`main` up to the event loop. A failure after the cgroup hierarchy runs `cleanup`, which undoes
the set-up steps however far they got; a failure inside the hierarchy undoes nothing, and no
error path removes MPTCP endpoints.
-/

namespace WifiOffload

/-- `RoutingPolicyManager::cleanup`: the kernel it leaves, and whether the directories were all
removed without a word in the log. -/
def cleanup (host : Host) (classes : List PathClassConfig) (k : Kernel) : Kernel × Bool :=
  removeCgroups host classes (removeIptablesMarkRules (removeDropRules (removeIpRules classes k)))

structure StartupFaults extends SetupFaults where
  endpoints : EndpointFaults := {}
  /-- `ConsumerApiServer::start` fails. -/
  apiServer : Bool := false

/-- The step at which `main` gives up with `return EXIT_FAILURE`. At `apiServer` the monitor threads
are joinable already, so their destructors end the process by `std::terminate` instead. -/
inductive StartupStage where
  | cgroups | markRules | ipRules | dropRules | endpoints | apiServer
  deriving DecidableEq, Repr

/-- The kernel that a start-up leaves, and where it failed if it did. -/
structure Startup where
  kernel : Kernel
  failed : Option StartupStage
  cleanupOk : Bool := true

/-- Clean up, the last thing that `main` does to the kernel before it gives up. -/
def giveUp (host : Host) (classes : List PathClassConfig) (stage : StartupStage) (k : Kernel) :
    Startup :=
  { kernel := (cleanup host classes k).1, failed := some stage
    cleanupOk := (cleanup host classes k).2 }

def startUp (host : Host) (faults : StartupFaults) (classes : List PathClassConfig) (k : Kernel) :
    Startup :=
  match createCgroupHierarchy host faults.cgroup classes k with
  | ⟨k, some _⟩ => { kernel := k, failed := some .cgroups }
  | ⟨k, none⟩ =>
    match addIptablesMarkRules faults.mark classes k with
    | ⟨k, some _⟩ => giveUp host classes .markRules k
    | ⟨k, none⟩ =>
      match addIpRules faults.rule classes k with
      | ⟨k, some _⟩ => giveUp host classes .ipRules k
      | ⟨k, none⟩ =>
        match addDropRules faults.drop classes k with
        | ⟨k, some _⟩ => giveUp host classes .dropRules k
        | ⟨k, none⟩ =>
          match addEndpoints host faults.endpoints classes k with
          | ⟨k, some _⟩ => giveUp host classes .endpoints k
          | ⟨k, none⟩ =>
            if faults.apiServer then giveUp host classes .apiServer k
            else { kernel := k, failed := none }

/-- A kernel without traces of the daemon. -/
structure CleanKernel (host : Host) (classes : List PathClassConfig) (k : Kernel) : Prop extends
    NoPolicy k where
  not_mem_dirs : ∀ cls ∈ classes, host.classDir cls ∉ k.dirs

/-! ## How far a start-up can get -/

/-- A kernel that the steps of a start-up, each of them done in full or in part, lead to. -/
structure PartlySetUp (host : Host) (classes : List PathClassConfig) (k s : Kernel) : Prop where
  cgroups : ∃ new, s.cgroups = k.cgroups ++ new ∧
    ∀ c ∈ new, ∃ cls ∈ classes, host.classDir cls = c.dir
  mangle : s.mangle = k.mangle ∨
    s.mangle = (k.mangle.putChain kNetserviceChain (markRules classes)).putJump kNetserviceChain
  filter : s.filter = k.filter ∨
    s.filter = (k.filter.putChain kIsoChain (dropRules classes)).putJump kIsoChain
  fwRules : ∃ added, s.fwRules = k.fwRules ++ added ∧ added.Nodup ∧ added ⊆ classes.map classRule

variable {host : Host} {faults : StartupFaults} {classes : List PathClassConfig} {k s : Kernel}

/-- The removal of rules and chains undoes what was added however far the set-up got. -/
theorem PartlySetUp.removeRules (h : PartlySetUp host classes k s) (hk : NoPolicy k) :
    removeIptablesMarkRules (removeDropRules (removeIpRules classes s)) =
      { s with mangle := k.mangle, filter := k.filter, fwRules := k.fwRules } := by
  obtain ⟨added, hadded, hnodup, hsub⟩ := h.fwRules
  have hmangle : removeChain kNetserviceChain s.mangle = k.mangle := by
    rcases h.mangle with hm | hm
    · rw [hm, hk.mangle.removeChain_eq_self]
    · rw [hm, hk.mangle.removeChain_install]
  have hfilter : removeChain kIsoChain s.filter = k.filter := by
    rcases h.filter with hf | hf
    · rw [hf, hk.filter.removeChain_eq_self]
    · rw [hf, hk.filter.removeChain_install]
  have hrules : s.fwRules.diff (classes.map classRule) = k.fwRules := by
    rw [hadded]
    refine diff_append_of_added hnodup hsub fun r hr hmem => hk.priority_ne r hmem ?_
    obtain ⟨cls, -, rfl⟩ := List.mem_map.mp hr
    rfl
  rw [removeIpRules_state, removeDropRules, removeIptablesMarkRules, hmangle, hfilter, hrules]

/-- A clean-up undoes a set-up however far it got, but for the endpoints. -/
theorem PartlySetUp.cleanup (h : PartlySetUp host classes k s) (hk : CleanKernel host classes k)
    (hok : (WifiOffload.cleanup host classes s).2 = true) :
    (WifiOffload.cleanup host classes s).1 =
      { s with
        cgroups := k.cgroups, mangle := k.mangle, filter := k.filter, fwRules := k.fwRules } := by
  obtain ⟨new, hcgroups, hnew⟩ := h.cgroups
  rw [WifiOffload.cleanup, h.removeRules hk.toNoPolicy] at hok ⊢
  have hold : ∀ cls ∈ classes, ∀ c ∈ k.cgroups, c.dir ≠ host.classDir cls :=
    fun cls hcls c hc hdir => hk.not_mem_dirs cls hcls (List.mem_map.mpr ⟨c, hc, hdir⟩)
  obtain ⟨s', hs'⟩ : ∃ s' : Kernel,
      s' = { s with mangle := k.mangle, filter := k.filter, fwRules := k.fwRules } := ⟨_, rfl⟩
  rw [← hs'] at hok ⊢
  have hs'new : s'.cgroups = k.cgroups ++ new := by rw [hs', hcgroups]
  obtain ⟨left, hleft, hcs⟩ := removeCgroups_append hold hs'new
  have hnil : left = [] := by
    refine List.eq_nil_iff_forall_not_mem.mpr fun c hc => ?_
    obtain ⟨cls, hcls, hdir⟩ := hnew c (hleft hc)
    refine classDir_not_mem_of_removeCgroups hok cls hcls ?_
    rw [Kernel.dirs, hcs, hdir]
    exact List.mem_map_of_mem (List.mem_append_right _ hc)
  rw [removeCgroups_frame, hcs, hnil, List.append_nil, hs']

namespace PartlySetUp

theorem after_hierarchy (hk : CleanKernel host classes k) (faults : Nat → Option CgroupFault) :
    ∃ cgroups, (createCgroupHierarchy host faults classes k).state = { k with cgroups } ∧
      PartlySetUp host classes k { k with cgroups } := by
  obtain ⟨new, hstate, hnew⟩ := createCgroupHierarchy_state host faults hk.not_mem_dirs
  exact ⟨_, hstate, ⟨new, rfl, hnew⟩, .inl rfl, .inl rfl, [], by simp⟩

theorem after_markRules (h : PartlySetUp host classes k s) (hmangle : s.mangle = k.mangle)
    (faults : IptcFaults) :
    ∃ mangle, (addIptablesMarkRules faults classes s).state = { s with mangle } ∧
      PartlySetUp host classes k { s with mangle } := by
  rcases installInto_state faults kNetserviceChain (·.mangle) (fun t k => { k with mangle := t })
    (markRules classes) s with hstate | hstate
  · exact ⟨s.mangle, hstate, h⟩
  · exact ⟨_, hstate, h.cgroups, .inr (by rw [hmangle]), h.filter, h.fwRules⟩

theorem after_ipRules (h : PartlySetUp host classes k s) (hrules : s.fwRules = k.fwRules)
    (faults : Nat → Option NetlinkFault) :
    ∃ fwRules, (addIpRules faults classes s).state = { s with fwRules } ∧
      PartlySetUp host classes k { s with fwRules } := by
  obtain ⟨added, hstate, hnodup, -, hsub⟩ := addIpRules_state faults classes s
  exact ⟨_, hstate, h.cgroups, h.mangle, h.filter, added, by rw [hrules], hnodup, hsub⟩

theorem after_dropRules (h : PartlySetUp host classes k s) (hfilter : s.filter = k.filter)
    (faults : IptcFaults) :
    ∃ filter, (addDropRules faults classes s).state = { s with filter } ∧
      PartlySetUp host classes k { s with filter } := by
  rcases addDropRules_state faults classes s with hstate | hstate
  · exact ⟨s.filter, hstate, h⟩
  · exact ⟨_, hstate, h.cgroups, h.mangle, .inr (by rw [hfilter]), h.fwRules⟩

theorem after_endpoints (h : PartlySetUp host classes k s) (hend : s.endpoints = k.endpoints)
    (faults : EndpointFaults) :
    ∃ added, (addEndpoints host faults classes s).state =
        { s with endpoints := k.endpoints ++ added } ∧
      PartlySetUp host classes k { s with endpoints := k.endpoints ++ added } ∧
      (added = [] ↔ faults.family = true ∨
        AddsNothing host faults.command k 0 (endpointIfaces classes)) := by
  obtain ⟨added, hstate, hiff⟩ := addEndpoints_state host faults classes s
  rw [addsNothing_congr hend] at hiff
  exact ⟨added, hend ▸ hstate, ⟨h.cgroups, h.mangle, h.filter, h.fwRules⟩, hiff⟩

end PartlySetUp

/-- What `s`, reached when a start-up fails at a stage after the hierarchy, has for endpoints. -/
def EndpointsAt (host : Host) (faults : StartupFaults) (classes : List PathClassConfig)
    (k s : Kernel) : StartupStage → Prop
  | .cgroups => False
  | .markRules | .ipRules | .dropRules => s.endpoints = k.endpoints
  | .endpoints | .apiServer => ∃ added, s.endpoints = k.endpoints ++ added ∧
      (added = [] ↔ faults.endpoints.family = true ∨
        AddsNothing host faults.endpoints.command k 0 (endpointIfaces classes))

/-- A start-up fails in the hierarchy, cleans up after a partial set-up, or goes through. -/
theorem startUp_cases (faults : StartupFaults) (hk : CleanKernel host classes k) :
    ((startUp host faults classes k).failed = some .cgroups ∧
      (createCgroupHierarchy host faults.cgroup classes k).error ≠ none ∧
      (startUp host faults classes k).kernel =
        (createCgroupHierarchy host faults.cgroup classes k).state) ∨
    (∃ stage s, (startUp host faults classes k).failed = some stage ∧
      PartlySetUp host classes k s ∧ EndpointsAt host faults classes k s stage ∧
      (startUp host faults classes k).kernel = (cleanup host classes s).1 ∧
      (startUp host faults classes k).cleanupOk = (cleanup host classes s).2) ∨
    ((startUp host faults classes k).failed = none ∧
      (createCgroupHierarchy host faults.cgroup classes k).error = none ∧
      PartlySetUp host classes k (startUp host faults classes k).kernel ∧
      ∃ mangle filter fwRules endpoints, (startUp host faults classes k).kernel =
        { (createCgroupHierarchy host faults.cgroup classes k).state with
          mangle, filter, fwRules, endpoints }) := by
  obtain ⟨cgroups, hstate₁, hpart₁⟩ := PartlySetUp.after_hierarchy hk faults.cgroup
  unfold startUp
  rcases h₁ : createCgroupHierarchy host faults.cgroup classes k with ⟨k₁, _ | e₁⟩
  case some => exact .inl ⟨rfl, by simp, rfl⟩
  rw [h₁] at hstate₁
  obtain rfl : k₁ = _ := hstate₁
  obtain ⟨mangle, hstate₂, hpart₂⟩ := hpart₁.after_markRules rfl faults.mark
  rcases h₂ : addIptablesMarkRules faults.mark classes { k with cgroups } with ⟨k₂, _ | e₂⟩
  case some =>
    rw [h₂] at hstate₂
    obtain rfl : k₂ = _ := hstate₂
    simp only [h₂]
    exact .inr (.inl ⟨.markRules, _, rfl, hpart₂, rfl, rfl, rfl⟩)
  rw [h₂] at hstate₂
  obtain rfl : k₂ = _ := hstate₂
  obtain ⟨fwRules, hstate₃, hpart₃⟩ := hpart₂.after_ipRules rfl faults.rule
  rcases h₃ : addIpRules faults.rule classes { k with cgroups, mangle } with ⟨k₃, _ | e₃⟩
  case some =>
    rw [h₃] at hstate₃
    obtain rfl : k₃ = _ := hstate₃
    simp only [h₂, h₃]
    exact .inr (.inl ⟨.ipRules, _, rfl, hpart₃, rfl, rfl, rfl⟩)
  rw [h₃] at hstate₃
  obtain rfl : k₃ = _ := hstate₃
  obtain ⟨filter, hstate₄, hpart₄⟩ := hpart₃.after_dropRules rfl faults.drop
  rcases h₄ : addDropRules faults.drop classes { k with cgroups, mangle, fwRules } with
    ⟨k₄, _ | e₄⟩
  case some =>
    rw [h₄] at hstate₄
    obtain rfl : k₄ = _ := hstate₄
    simp only [h₂, h₃, h₄]
    exact .inr (.inl ⟨.dropRules, _, rfl, hpart₄, rfl, rfl, rfl⟩)
  rw [h₄] at hstate₄
  obtain rfl : k₄ = _ := hstate₄
  obtain ⟨added, hstate₅, hpart₅, hiff⟩ := hpart₄.after_endpoints rfl faults.endpoints
  rcases h₅ : addEndpoints host faults.endpoints classes { k with cgroups, mangle, fwRules, filter }
    with ⟨k₅, _ | e₅⟩
  case some =>
    rw [h₅] at hstate₅
    obtain rfl : k₅ = _ := hstate₅
    simp only [h₂, h₃, h₄, h₅]
    exact .inr (.inl ⟨.endpoints, _, rfl, hpart₅, ⟨added, rfl, hiff⟩, rfl, rfl⟩)
  rw [h₅] at hstate₅
  obtain rfl : k₅ = _ := hstate₅
  simp only [h₂, h₃, h₄, h₅]
  cases faults.apiServer with
  | true => exact .inr (.inl ⟨.apiServer, _, rfl, hpart₅, ⟨added, rfl, hiff⟩, rfl, rfl⟩)
  | false => exact .inr (.inr ⟨rfl, trivial, hpart₅, _, _, _, _, rfl⟩)

/-! ## What a failed start-up leaves behind -/

/-- Cgroups, policy rules, chains, jumps and endpoints are those of `k`. -/
structure Restored (k s : Kernel) : Prop where
  cgroups : s.cgroups = k.cgroups
  fwRules : s.fwRules = k.fwRules
  mangle : s.mangle = k.mangle
  filter : s.filter = k.filter
  endpoints : s.endpoints = k.endpoints

theorem mem_dirs_setupOneClass (host : Host) (fault : Option CgroupFault) (cls : PathClassConfig)
    {d : Dir} (h : d ∈ s.dirs) : d ∈ (setupOneClass host fault cls s).state.dirs := by
  rcases setupOneClass_cases host fault cls s with ⟨-, heq⟩ | ⟨-, heq⟩ | ⟨-, heq⟩
  · rwa [heq]
  · rw [heq]
    exact Kernel.mem_dirs_ensureDir.mpr (.inl h)
  · rw [heq]
    exact Kernel.mem_dirs_withClass.mpr (.inl h)

/-- A hierarchy that fails has made no directory exactly when the set-up of the first class did
not get past `create_directories`: no error path removes the ones already made. -/
theorem hierarchy_restored_iff (hk : CleanKernel host classes k)
    {faults : Nat → Option CgroupFault}
    (herr : (createCgroupHierarchy host faults classes k).error ≠ none) :
    Restored k (createCgroupHierarchy host faults classes k).state ↔
      ∀ cls ∈ classes.head?, ¬ MakesDir host (faults 0) cls k := by
  obtain ⟨cgroups, hframe⟩ := createCgroupHierarchy_frame host faults classes k
  cases classes with
  | nil => exact absurd rfl herr
  | cons cls classes =>
    simp only [List.head?_cons, Option.mem_some_iff, forall_eq']
    by_cases hmakes : MakesDir host (faults 0) cls k
    · refine iff_of_false (fun hrest => hk.not_mem_dirs cls (by simp) ?_) (not_not.mpr hmakes)
      -- the directory of the first class is there, whatever becomes of the others
      have hmade : host.classDir cls ∈ (setupOneClass host (faults 0) cls k).state.dirs := by
        rcases setupOneClass_cases host (faults 0) cls k with ⟨hnot, -⟩ | ⟨-, heq⟩ | ⟨-, heq⟩
        · exact absurd hmakes hnot
        · rw [heq]
          exact Kernel.mem_dirs_ensureDir.mpr (.inr rfl)
        · rw [heq]
          exact Kernel.mem_dirs_withClass.mpr (.inr rfl)
      have hkept : host.classDir cls ∈
          (createCgroupHierarchy host faults (cls :: classes) k).state.dirs := by
        rw [createCgroupHierarchy, Attempt.eachFrom_cons]
        cases he : (setupOneClass host (faults 0) cls k).error with
        | some e => rwa [Attempt.andThen_of_error he]
        | none =>
          rw [Attempt.andThen_of_ok he]
          exact Attempt.eachFrom_preserves (P := fun t : Kernel => host.classDir cls ∈ t.dirs)
            (fun i c _ t ht => mem_dirs_setupOneClass host (faults i) c ht) 1 hmade
      rwa [Kernel.dirs, hrest.cgroups] at hkept
    · refine iff_of_true ?_ hmakes
      have hstate : (createCgroupHierarchy host faults (cls :: classes) k).state = k := by
        rcases setupOneClass_cases host (faults 0) cls k with ⟨-, heq⟩ | ⟨h, -⟩ | ⟨h, -⟩
        · rw [createCgroupHierarchy, Attempt.eachFrom_cons,
            Attempt.andThen_of_error (e := .cgroupCreateFailed) (by rw [heq]), heq]
        · exact absurd h hmakes
        · exact absurd h hmakes
      rw [hstate]
      exact ⟨rfl, rfl, rfl, rfl, rfl⟩

/-- The failures that leave nothing behind. -/
def LeavesNothing (host : Host) (faults : StartupFaults) (classes : List PathClassConfig)
    (k : Kernel) : StartupStage → Prop
  | .cgroups => ∀ cls ∈ classes.head?, ¬ MakesDir host (faults.cgroup 0) cls k
  | .markRules | .ipRules | .dropRules => True
  | .endpoints | .apiServer => faults.endpoints.family = true ∨
      AddsNothing host faults.endpoints.command k 0 (endpointIfaces classes)

/-- A start-up that fails, with a clean-up that succeeds, restores the kernel exactly when it
fails after the hierarchy and before the first endpoint, or before the first directory. -/
theorem failed_startUp_restored_iff (host : Host) (faults : StartupFaults)
    (classes : List PathClassConfig) (k : Kernel) (stage : StartupStage)
    (hk : CleanKernel host classes k) (hfail : (startUp host faults classes k).failed = some stage)
    (hok : (startUp host faults classes k).cleanupOk = true) :
    Restored k (startUp host faults classes k).kernel ↔
      LeavesNothing host faults classes k stage := by
  rcases startUp_cases faults hk with ⟨hstage, herr, hkernel⟩ |
    ⟨stage', s, hstage, hpart, hend, hkernel, hcleanup⟩ | ⟨hnone, -⟩
  · rw [hfail, Option.some.injEq] at hstage
    rw [hstage, hkernel]
    exact hierarchy_restored_iff hk herr
  · rw [hfail, Option.some.injEq] at hstage
    subst hstage
    have hclean := hpart.cleanup hk (by rw [← hcleanup, hok])
    have hrest : Restored k (cleanup host classes s).1 ↔ s.endpoints = k.endpoints := by
      rw [hclean]
      exact ⟨fun h => h.endpoints, fun h => ⟨rfl, rfl, rfl, rfl, h⟩⟩
    rw [hkernel, hrest]
    cases stage with
    | cgroups => exact hend.elim
    | markRules | ipRules | dropRules => exact iff_of_true hend trivial
    | endpoints | apiServer =>
      obtain ⟨added, hadded, hiff⟩ := hend
      rw [LeavesNothing, ← hiff, hadded, List.append_right_eq_self]
  · rw [hfail] at hnone
    cases hnone

theorem bootedKernel_clean : CleanKernel vlanHost pathPolicies bootedKernel :=
  ⟨⟨by decide, ⟨by decide, by decide, by decide⟩, ⟨by decide, by decide, by decide⟩⟩, by decide⟩

theorem failed_startUp_restored_dropRules :
    let failing := startUp vlanHost { drop := fun _ => true } pathPolicies bootedKernel
    CleanKernel vlanHost pathPolicies bootedKernel ∧ failing.failed = some .dropRules ∧
      failing.cleanupOk = true ∧ (Restored bootedKernel failing.kernel ↔
        LeavesNothing vlanHost { drop := fun _ => true } pathPolicies bootedKernel .dropRules) := by
  have hfail : (startUp vlanHost { drop := fun _ => true } pathPolicies bootedKernel).failed =
      some .dropRules := by decide
  have hok : (startUp vlanHost { drop := fun _ => true } pathPolicies bootedKernel).cleanupOk =
      true := by decide
  exact ⟨bootedKernel_clean, hfail, hok,
    failed_startUp_restored_iff _ _ _ _ _ bootedKernel_clean hfail hok⟩

/-- The directory of the first class stays when that of the second cannot be made. -/
theorem failed_hierarchy_leaves_directory :
    ¬ ∀ (host : Host) (faults : StartupFaults) (classes : List PathClassConfig) (k : Kernel)
        (stage : StartupStage), Accepted classes → CleanKernel host classes k →
        (startUp host faults classes k).failed = some stage →
        (startUp host faults classes k).cleanupOk = true →
        Restored k (startUp host faults classes k).kernel := by
  intro h
  have hrest := h vlanHost { cgroup := fun i => if i = 1 then some .mkdir else none } pathPolicies
    bootedKernel .cgroups pathPolicies_accepted bootedKernel_clean (by decide) (by decide)
  exact absurd hrest.cgroups (by decide)

/-- The endpoint of the first interface stays when the API server cannot be started. -/
example :
    (startUp { vlanHost with ifaceAddr4 := fun _ => 0x0A000001 } { apiServer := true }
      pathPolicies bootedKernel).kernel.endpoints = [⟨0x0A000001, 4⟩] := by decide

end WifiOffload
