import WifiOffload.Routing.Cgroups
import WifiOffload.Routing.Isolation
import WifiOffload.Routing.MarkRules
import WifiOffload.Routing.PolicyRules

/-!
# Set-up and restart

The four set-up steps of `main`, and what they make of a kernel in which an earlier run of the
daemon died. Each step has its own notion of idempotence: the mark chain is flushed and filled
again, policy rules are only added, and the isolation chain is left alone without a strict class.
-/

namespace WifiOffload

/-- Where the environment lets the set-up fail. -/
structure SetupFaults where
  cgroup : Nat → Option CgroupFault := fun _ => none
  mark : IptcFaults := fun _ => false
  rule : Nat → Option NetlinkFault := fun _ => none
  drop : IptcFaults := fun _ => false

/-- `createCgroupHierarchy`, `addIptablesMarkRules`, `addIpRules`, `addDropRules`. -/
def setUpRouting (host : Host) (faults : SetupFaults) (classes : List PathClassConfig) :
    Attempt Kernel RoutingError :=
  Attempt.andThen (createCgroupHierarchy host faults.cgroup classes)
    (Attempt.andThen (addIptablesMarkRules faults.mark classes)
      (Attempt.andThen (addIpRules faults.rule classes) (addDropRules faults.drop classes)))

variable {host : Host} {faults : SetupFaults} {classes : List PathClassConfig} {k : Kernel}

theorem createCgroupHierarchy_frame (host : Host) (faults : Nat → Option CgroupFault)
    (classes : List PathClassConfig) (k : Kernel) :
    ∃ cgroups, (createCgroupHierarchy host faults classes k).state = { k with cgroups } := by
  refine Attempt.eachFrom_preserves (s := k) (P := fun s => ∃ cgroups, s = { k with cgroups })
    ?_ 0 ⟨k.cgroups, rfl⟩
  rintro i cls - s ⟨cgroups, rfl⟩
  rcases setupOneClass_cases host (faults i) cls { k with cgroups } with
    ⟨-, heq⟩ | ⟨-, heq⟩ | ⟨-, heq⟩
  · exact ⟨cgroups, by rw [heq]⟩
  · exact ⟨_, by rw [heq]; exact Kernel.ensureDir_frame⟩
  · exact ⟨_, by rw [heq]; exact Kernel.withClass_frame⟩

/-- What a set-up that goes through has made of the tables and the policy rules. -/
structure RoutingSetUp (classes : List PathClassConfig) (k s : Kernel) : Prop where
  mangle : s.mangle =
    (k.mangle.putChain kNetserviceChain (markRules classes)).putJump kNetserviceChain
  filter : s.filter = if anyIsolation classes then
    (k.filter.putChain kIsoChain (dropRules classes)).putJump kIsoChain else k.filter
  mem_fwRules : ∀ r, r ∈ s.fwRules ↔ r ∈ k.fwRules ∨ ∃ cls ∈ classes, classRule cls = r

theorem setUpRouting_ok (hok : (setUpRouting host faults classes k).error = none) :
    RoutingSetUp classes k (setUpRouting host faults classes k).state := by
  unfold setUpRouting at hok ⊢
  simp only [Attempt.andThen_error_eq_none] at hok
  obtain ⟨hok₁, hok₂, hok₃, hok₄⟩ := hok
  rw [Attempt.andThen_of_ok hok₁, Attempt.andThen_of_ok hok₂, Attempt.andThen_of_ok hok₃,
    addDropRules_ok hok₄]
  obtain ⟨cgroups, h₁⟩ := createCgroupHierarchy_frame host faults.cgroup classes k
  have h₂ := installInto_ok hok₂
  rw [← addIptablesMarkRules] at h₂
  have h₃ := fun r => mem_fwRules_of_addIpRules_ok hok₃ (r := r)
  obtain ⟨added, hstate, -⟩ := addIpRules_state faults.rule classes
    (addIptablesMarkRules faults.mark classes
      (createCgroupHierarchy host faults.cgroup classes k).state).state
  rw [hstate] at h₃ ⊢
  rw [h₂, h₁] at h₃ ⊢
  refine ⟨?_, ?_, ?_⟩
  · split <;> rfl
  · split <;> rfl
  · intro r
    have hr := h₃ r
    split
    · exact hr
    · exact hr

/-! ## What is compared -/

/-- A chain of the daemon as a table shows it: its rules, if it exists, and the rules of
`OUTPUT` that jump to it. -/
structure ChainView where
  rules : Option (List Entry)
  jumps : List Entry
  deriving DecidableEq

def Table.chainView (t : Table) (chain : Bytes) : ChainView :=
  ⟨t.chains.lookup chain, t.output.filter (·.target.name = chain)⟩

/-- The policy state that a restart has to bring about again. -/
structure PolicyView where
  rules : Finset FwRule
  mark : ChainView
  iso : ChainView
  deriving DecidableEq

def policyView (k : Kernel) : PolicyView where
  rules := (k.fwRules.filter (·.priority = kIpRulePriority)).toFinset
  mark := k.mangle.chainView kNetserviceChain
  iso := k.filter.chainView kIsoChain

/-- A kernel without traces of the daemon in its tables and policy rules. -/
structure NoPolicy (k : Kernel) : Prop where
  priority_ne : ∀ r ∈ k.fwRules, r.priority ≠ kIpRulePriority
  mangle : k.mangle.Free kNetserviceChain
  filter : k.filter.Free kIsoChain

theorem Table.Free.chainView {t : Table} {chain : Bytes} (h : t.Free chain) :
    t.chainView chain = ⟨none, []⟩ := by
  rw [Table.chainView, Option.not_isSome_iff_eq_none.mp h.not_isChain,
    List.filter_eq_nil_iff.mpr fun e he => by simpa using h.output_ne e he]

/-- An installed chain looks the same whether or not it was there before. -/
theorem chainView_install {t : Table} {chain : Bytes} {es : List Entry}
    (h : (t.chainView chain).jumps = [] ∨ (t.chainView chain).jumps = [buildJumpEntry chain]) :
    ((t.putChain chain es).putJump chain).chainView chain =
      ⟨some es, [buildJumpEntry chain]⟩ := by
  rw [Table.chainView, Table.chains_putJump, Table.lookup_putChain]
  have hjumps : ((t.putChain chain es).putJump chain).output.filter (·.target.name = chain) =
      if (t.chainView chain).jumps = [] then [buildJumpEntry chain]
      else (t.chainView chain).jumps := by
    have hexists : jumpExists chain (t.putChain chain es) = true ↔
        (t.chainView chain).jumps ≠ [] := by
      simp [jumpExists, Table.chainView, List.filter_eq_nil_iff]
    unfold Table.putJump
    by_cases hj : (t.chainView chain).jumps = []
    · rw [if_neg (by rw [hexists]; exact not_not.mpr hj), if_pos hj, Table.appendOutput,
        List.filter_append, Table.output_putChain]
      have hold : t.output.filter (·.target.name = chain) = [] := hj
      rw [hold]
      simp
    · rw [if_pos (hexists.mpr hj), if_neg hj, Table.output_putChain]
      rfl
  rw [hjumps]
  rcases h with h | h <;> simp [h]

/-- The chain has at most one jump to it, the daemon's. -/
def ChainView.OneJump (v : ChainView) (chain : Bytes) : Prop :=
  v.jumps = [] ∨ v.jumps = [buildJumpEntry chain]

/-- The policy state after a set-up, from that before: marks are replaced, rules are added and
the isolation chain is replaced or left alone. -/
theorem RoutingSetUp.policyView {s : Kernel} (h : RoutingSetUp classes k s)
    (hmark : (policyView k).mark.OneJump kNetserviceChain)
    (hiso : (policyView k).iso.OneJump kIsoChain) :
    WifiOffload.policyView s =
      { rules := (WifiOffload.policyView k).rules ∪ (classes.map classRule).toFinset
        mark := ⟨some (markRules classes), [buildJumpEntry kNetserviceChain]⟩
        iso := if anyIsolation classes then ⟨some (dropRules classes), [buildJumpEntry kIsoChain]⟩
          else (WifiOffload.policyView k).iso } := by
  have hrules : (s.fwRules.filter (·.priority = kIpRulePriority)).toFinset =
      (WifiOffload.policyView k).rules ∪ (classes.map classRule).toFinset := by
    ext r
    simp only [WifiOffload.policyView, List.mem_toFinset, List.mem_filter, Finset.mem_union,
      List.mem_map, h.mem_fwRules r, decide_eq_true_eq]
    constructor
    · rintro ⟨hr | hr, hprio⟩
      · exact .inl ⟨hr, hprio⟩
      · exact .inr hr
    · rintro (⟨hr, hprio⟩ | ⟨cls, hcls, rfl⟩)
      · exact ⟨.inl hr, hprio⟩
      · exact ⟨.inr ⟨cls, hcls, rfl⟩, rfl⟩
  have hmangle : s.mangle.chainView kNetserviceChain =
      ⟨some (markRules classes), [buildJumpEntry kNetserviceChain]⟩ := by
    rw [h.mangle, chainView_install hmark]
  have hfilter : s.filter.chainView kIsoChain = if anyIsolation classes then
      ⟨some (dropRules classes), [buildJumpEntry kIsoChain]⟩
      else (WifiOffload.policyView k).iso := by
    rw [h.filter]
    split
    · exact chainView_install hiso
    · rfl
  rw [WifiOffload.policyView, hrules, hmangle, hfilter]

theorem NoPolicy.policyView (h : NoPolicy k) :
    WifiOffload.policyView k = { rules := ∅, mark := ⟨none, []⟩, iso := ⟨none, []⟩ } := by
  have hrules : k.fwRules.filter (·.priority = kIpRulePriority) = [] :=
    List.filter_eq_nil_iff.mpr fun r hr => by simpa using h.priority_ne r hr
  rw [WifiOffload.policyView, hrules, h.mangle.chainView, h.filter.chainView]
  rfl

/-- A restart with `classes₂` after a run with `classes₁` that died brings about the policy state
of a first start exactly when every rule of the old configuration is one of the new, and the old
one has a strict class only if the new one has. -/
theorem restart_converges_iff (host : Host) (faults₁ faults₂ faults₃ : SetupFaults)
    (classes₁ classes₂ : List PathClassConfig) (k : Kernel) (hk : NoPolicy k)
    (hok₁ : (setUpRouting host faults₁ classes₁ k).error = none)
    (hok₂ : (setUpRouting host faults₂ classes₂
      (setUpRouting host faults₁ classes₁ k).state).error = none)
    (hok₃ : (setUpRouting host faults₃ classes₂ k).error = none) :
    policyView (setUpRouting host faults₂ classes₂
        (setUpRouting host faults₁ classes₁ k).state).state =
      policyView (setUpRouting host faults₃ classes₂ k).state ↔
    (∀ A ∈ classes₁, ∃ B ∈ classes₂, B.mark = A.mark ∧ B.routingTable = A.routingTable) ∧
      ((∃ A ∈ classes₁, A.strictIsolation = true) → ∃ B ∈ classes₂, B.strictIsolation = true) := by
  have hview := hk.policyView
  have hview₁ := (setUpRouting_ok hok₁).policyView (.inl (by rw [hview])) (.inl (by rw [hview]))
  have hview₃ := (setUpRouting_ok hok₃).policyView (.inl (by rw [hview])) (.inl (by rw [hview]))
  have hone : (policyView (setUpRouting host faults₁ classes₁ k).state).iso.OneJump kIsoChain := by
    rw [hview₁, hview]
    split
    · exact .inr rfl
    · exact .inl rfl
  have hview₂ := (setUpRouting_ok hok₂).policyView (.inr (by rw [hview₁])) hone
  rw [hview₂, hview₁, hview₃, hview]
  simp only [PolicyView.mk.injEq, Finset.empty_union, Finset.union_eq_right, true_and]
  refine and_congr ?_ ?_
  · constructor
    · intro hsub A hA
      have hmem := hsub (List.mem_toFinset.mpr (List.mem_map_of_mem (f := classRule) hA))
      obtain ⟨B, hB, hrule⟩ := List.mem_map.mp (List.mem_toFinset.mp hmem)
      exact ⟨B, hB, congrArg FwRule.fwmark hrule, congrArg FwRule.table hrule⟩
    · intro h r hr
      obtain ⟨A, hA, rfl⟩ := List.mem_map.mp (List.mem_toFinset.mp hr)
      obtain ⟨B, hB, hmark, htable⟩ := h A hA
      refine List.mem_toFinset.mpr (List.mem_map.mpr ⟨B, hB, ?_⟩)
      rw [classRule, classRule, hmark, htable]
  · simp only [← anyIsolation_iff]
    by_cases h₂ : anyIsolation classes₂ = true
    · simp [h₂]
    · by_cases h₁ : anyIsolation classes₁ = true <;> simp [h₁, h₂]

theorem restart_converges_unchanged :
    let first := setUpRouting vlanHost {} pathPolicies bootedKernel
    let again := setUpRouting vlanHost {} pathPolicies first.state
    NoPolicy bootedKernel ∧ first.error = none ∧ again.error = none ∧
      (policyView again.state = policyView first.state ↔
        (∀ A ∈ pathPolicies, ∃ B ∈ pathPolicies,
            B.mark = A.mark ∧ B.routingTable = A.routingTable) ∧
          ((∃ A ∈ pathPolicies, A.strictIsolation = true) →
            ∃ B ∈ pathPolicies, B.strictIsolation = true)) := by
  have hk : NoPolicy bootedKernel :=
    ⟨by decide, ⟨by decide, by decide, by decide⟩, ⟨by decide, by decide, by decide⟩⟩
  have hfirst : (setUpRouting vlanHost {} pathPolicies bootedKernel).error = none := by decide
  have hagain : (setUpRouting vlanHost {} pathPolicies
      (setUpRouting vlanHost {} pathPolicies bootedKernel).state).error = none := by decide
  exact ⟨hk, hfirst, hagain, restart_converges_iff vlanHost {} {} {} pathPolicies pathPolicies
    bootedKernel hk hfirst hagain hfirst⟩

/-- Restarted without its strict class, the daemon leaves the rule of that class and the whole
isolation chain in place. -/
theorem restart_leaves_isolation :
    ¬ ∀ (host : Host) (faults₁ faults₂ faults₃ : SetupFaults)
        (classes₁ classes₂ : List PathClassConfig) (k : Kernel), Accepted classes₁ →
        Accepted classes₂ → NoPolicy k → (setUpRouting host faults₁ classes₁ k).error = none →
        (setUpRouting host faults₂ classes₂
          (setUpRouting host faults₁ classes₁ k).state).error = none →
        (setUpRouting host faults₃ classes₂ k).error = none →
        policyView (setUpRouting host faults₂ classes₂
            (setUpRouting host faults₁ classes₁ k).state).state =
          policyView (setUpRouting host faults₃ classes₂ k).state := by
  intro h
  have hview := h vlanHost {} {} {} pathPolicies (pathPolicies.take 2) bootedKernel
    pathPolicies_accepted pathPolicies_take_accepted
    ⟨by decide, ⟨by decide, by decide, by decide⟩, ⟨by decide, by decide, by decide⟩⟩
    (by decide) (by decide) (by decide)
  exact absurd (congrArg (·.iso.rules.isSome) hview) (by decide)

end WifiOffload
