import WifiOffload.Routing.Cgroups
import WifiOffload.Routing.MarkRules
import WifiOffload.Routing.PolicyRules

/-!
# End-to-end classification

From the cgroup of a process to the routing table of its packets: the directory holds a classid,
the classid selects a mark, the mark a table. Classids, marks and tables are checked for
uniqueness and directories are not, so the chain is right exactly when no two classes share a
directory and no set-up mistakes the classid that a directory inherits for its own.
-/

namespace WifiOffload

variable {host : Host} {k s : Kernel} {cls : PathClassConfig} {classes done : List PathClassConfig}

/-! ## What the hierarchy loop leaves -/

/-- What holds of the cgroups after the classes of `done` have been set up. -/
structure SetUp (host : Host) (k : Kernel) (done : List PathClassConfig) (s : Kernel) : Prop where
  mem_dirs : ∀ d, d ∈ s.dirs ↔ d ∈ k.dirs ∨ ∃ cls ∈ done, host.classDir cls = d
  classidOf_other : ∀ d, (∀ cls ∈ done, host.classDir cls ≠ d) → s.classidOf d = k.classidOf d
  classidOf_class : ∀ cls ∈ done, ∃ c ∈ done, s.classidOf (host.classDir cls) = c.classid
  frame : s = { k with cgroups := s.cgroups }

/-- The classid that the next class finds is 0 or that of a class set up before. -/
theorem SetUp.heldClassid (h : SetUp host k done s) (hzero : ∀ d, k.classidOf d = 0) (d : Dir) :
    s.heldClassid d = 0 ∨ ∃ c ∈ done, s.heldClassid d = c.classid := by
  have hclassid (x : Dir) : s.classidOf x = 0 ∨ ∃ c ∈ done, s.classidOf x = c.classid := by
    by_cases hx : ∃ cls ∈ done, host.classDir cls = x
    · obtain ⟨cls, hcls, rfl⟩ := hx
      exact .inr (h.classidOf_class cls hcls)
    · push Not at hx
      exact .inl ((h.classidOf_other x hx).trans (hzero x))
  unfold Kernel.heldClassid
  split
  · exact hclassid d
  · exact hclassid d.dropLast

theorem readClassid_zero : readClassid 0 = 0 := rfl

/-- The step of the loop. -/
theorem SetUp.step (h : SetUp host k done s) (hzero : ∀ d, k.classidOf d = 0)
    (hne : cls.classid ≠ 0) {fault : Option CgroupFault}
    (hok : (setupOneClass host fault cls s).error = none) :
    SetUp host k (done ++ [cls]) (setupOneClass host fault cls s).state := by
  obtain ⟨-, heq⟩ := setupOneClass_ok hok
  rw [heq]
  have hself : (s.withClass (host.classDir cls) cls.classid).classidOf (host.classDir cls) =
      if readClassid (s.heldClassid (host.classDir cls)) = cls.classid then
        s.heldClassid (host.classDir cls) else cls.classid := Kernel.classidOf_withClass_self
  refine ⟨fun d => ?_, fun d hd => ?_, fun a ha => ?_, ?_⟩
  · rw [Kernel.mem_dirs_withClass, h.mem_dirs]
    grind
  · have hd' : d ≠ host.classDir cls := (hd cls (by simp)).symm
    rw [Kernel.classidOf_withClass_of_ne hd']
    exact h.classidOf_other d fun c hc => hd c (by simp [hc])
  · by_cases hdir : host.classDir a = host.classDir cls
    · rw [hdir, hself]
      split
      · next hread =>
        rcases h.heldClassid hzero (host.classDir cls) with hheld | ⟨c, hc, hheld⟩
        · rw [hheld, readClassid_zero] at hread
          exact absurd hread.symm hne
        · exact ⟨c, by simp [hc], hheld⟩
      · exact ⟨cls, by simp, rfl⟩
    · rw [Kernel.classidOf_withClass_of_ne hdir]
      have hadone : a ∈ done := by grind
      obtain ⟨c, hc, hcl⟩ := h.classidOf_class a hadone
      exact ⟨c, by simp [hc], hcl⟩
  · rw [Kernel.withClass_frame]
    rw [h.frame]

/-- Two classes, the first of them set up before the second, that the set-up keeps apart: they
have different directories, and the second does not lie right below the first with a classid
that the classid of the first, written in decimal, reads as in base 16. -/
def KeptApart (host : Host) (B C : PathClassConfig) : Prop :=
  host.classDir B ≠ host.classDir C ∧
    ¬ ((host.classDir C).dropLast = host.classDir B ∧ readClassid B.classid = C.classid)

/-- Every directory holds the classid of its class. -/
def HoldsClassids (host : Host) (classes : List PathClassConfig) (s : Kernel) : Prop :=
  ∀ cls ∈ classes, s.classidOf (host.classDir cls) = cls.classid

/-- After one more set-up the directories hold their classids exactly when they did before and
the new class is kept apart from the earlier ones. -/
theorem SetUp.holdsClassids_step (h : SetUp host k done s) (hzero : ∀ d, k.classidOf d = 0)
    (hfresh : host.classDir cls ∉ k.dirs) (hne : cls.classid ≠ 0)
    (hnew : ∀ B ∈ done, B.classid ≠ cls.classid) {fault : Option CgroupFault}
    (hok : (setupOneClass host fault cls s).error = none) :
    HoldsClassids host (done ++ [cls]) (setupOneClass host fault cls s).state ↔
      HoldsClassids host done s ∧ ∀ B ∈ done, KeptApart host B cls := by
  obtain ⟨-, heq⟩ := setupOneClass_ok hok
  rw [heq]
  have hself : (s.withClass (host.classDir cls) cls.classid).classidOf (host.classDir cls) =
      if readClassid (s.heldClassid (host.classDir cls)) = cls.classid then
        s.heldClassid (host.classDir cls) else cls.classid := Kernel.classidOf_withClass_self
  have hother (B : PathClassConfig) (hB : host.classDir B ≠ host.classDir cls) :
      (s.withClass (host.classDir cls) cls.classid).classidOf (host.classDir B) =
        s.classidOf (host.classDir B) := Kernel.classidOf_withClass_of_ne hB
  have hheld (hdirs : ∀ B ∈ done, host.classDir B ≠ host.classDir cls) :
      s.heldClassid (host.classDir cls) = s.classidOf (host.classDir cls).dropLast := by
    refine if_neg fun hmem => ?_
    obtain hk | ⟨B, hB, hdir⟩ := (h.mem_dirs _).mp hmem
    · exact hfresh hk
    · exact hdirs B hB hdir
  constructor
  · intro hall
    have hcls := hall cls (by simp)
    have hdirs : ∀ B ∈ done, host.classDir B ≠ host.classDir cls := by
      intro B hB hdir
      refine hnew B hB ?_
      rw [← hall B (by simp [hB]), hdir, hcls]
    have hdone : HoldsClassids host done s := fun B hB =>
      (hother B (hdirs B hB)).symm.trans (hall B (by simp [hB]))
    refine ⟨hdone, fun B hB => ⟨hdirs B hB, ?_⟩⟩
    rintro ⟨hparent, hread⟩
    -- the text of the inherited classid reads as the new one, which is then not written
    have hinherited : s.heldClassid (host.classDir cls) = B.classid := by
      rw [hheld hdirs, hparent, hdone B hB]
    rw [hself, hinherited, if_pos hread] at hcls
    exact hnew B hB hcls
  · rintro ⟨hdone, hapart⟩ C hC
    rcases List.mem_append.mp hC with hC | hC
    · rw [hother C (hapart C hC).1, hdone C hC]
    · obtain rfl := List.mem_singleton.mp hC
      rw [hself, if_neg]
      rw [hheld fun B hB => (hapart B hB).1]
      intro hread
      by_cases hparent : ∃ B ∈ done, host.classDir B = (host.classDir C).dropLast
      · obtain ⟨B, hB, hdir⟩ := hparent
        rw [← hdir, hdone B hB] at hread
        exact (hapart B hB).2 ⟨hdir.symm, hread⟩
      · push Not at hparent
        rw [h.classidOf_other _ hparent, hzero, readClassid_zero] at hread
        exact hne hread.symm

/-- A kernel without the directories of the classes and without a classid of its own. -/
structure NoClassCgroups (host : Host) (k : Kernel) (classes : List PathClassConfig) : Prop where
  not_mem_dirs : ∀ cls ∈ classes, host.classDir cls ∉ k.dirs
  classid_eq_zero : ∀ c ∈ k.cgroups, c.classid = 0

theorem NoClassCgroups.classidOf (h : NoClassCgroups host k classes) (d : Dir) :
    k.classidOf d = 0 := by
  unfold Kernel.classidOf
  cases hfind : k.cgroups.find? (·.dir = d) with
  | none => rfl
  | some c => exact h.classid_eq_zero c (List.mem_of_find?_eq_some hfind)

theorem createCgroupHierarchy_ok (hk : NoClassCgroups host k classes) (hwf : WellFormed classes)
    {faults : Nat → Option CgroupFault}
    (hok : (createCgroupHierarchy host faults classes k).error = none) :
    SetUp host k classes (createCgroupHierarchy host faults classes k).state ∧
      (HoldsClassids host classes (createCgroupHierarchy host faults classes k).state ↔
        classes.Pairwise (KeptApart host)) := by
  have hloop := Attempt.eachFrom_invariant
    (P := fun done s => SetUp host k done s ∧ ((done.map (·.classid)).Nodup →
      (HoldsClassids host done s ↔ done.Pairwise (KeptApart host)))) ?_ 0 [] ?_ hok
  · exact ⟨hloop.1, hloop.2 hwf.classids_nodup⟩
  · rintro i cls hcls done s ⟨hset, hiff⟩ hone
    have hne := (hwf.each cls hcls).classid_ne
    refine ⟨hset.step hk.classidOf hne hone, fun hnodup => ?_⟩
    simp only [List.map_append, List.map_cons, List.map_nil, List.nodup_append,
      List.nodup_cons] at hnodup
    have hnew : ∀ B ∈ done, B.classid ≠ cls.classid := fun B hB heq =>
      hnodup.2.2 B.classid (List.mem_map_of_mem hB) cls.classid (by simp) heq
    rw [hset.holdsClassids_step hk.classidOf (hk.not_mem_dirs cls hcls) hne hnew hone,
      hiff hnodup.1, List.pairwise_append]
    simp
  · exact ⟨⟨by simp, by simp, by simp, rfl⟩, by simp [HoldsClassids]⟩

/-! ## From the classid to the table -/

/-- The three set-up steps, in the order of `main`. -/
def setUpClassification (host : Host) (cgroupFaults : Nat → Option CgroupFault)
    (markFaults : IptcFaults) (ruleFaults : Nat → Option NetlinkFault)
    (classes : List PathClassConfig) : Attempt Kernel RoutingError :=
  Attempt.andThen (createCgroupHierarchy host cgroupFaults classes)
    (Attempt.andThen (addIptablesMarkRules markFaults classes) (addIpRules ruleFaults classes))

/-- The packets of a process in the directory of `C` leave `mangle` with the mark of `C`, which
sends them to the table of `C` and to that of no other class. -/
def Classified (foreign : Foreign) (host : Host) (classes : List PathClassConfig) (k : Kernel)
    (C : PathClassConfig) : Prop :=
  ∀ p : Packet, p.classid = k.classidOf (host.classDir C) →
    ∃ q, k.mangle.traverseOutput foreign p = .passed q ∧ q.mark = C.mark ∧
      C.routingTable ∈ consultedTables k q.mark ∧
      ∀ B ∈ classes, B ≠ C → B.routingTable ∉ consultedTables k q.mark

section

variable {foreign : Foreign} {C : PathClassConfig}

theorem mem_consultedTables {table mark : UInt32} :
    table ∈ consultedTables s mark ↔ ∃ r ∈ s.fwRules, r.fwmark = mark ∧ r.table = table := by
  simp [consultedTables, and_assoc]

/-- Under the rules of the classes alone, the mark of a class selects its table only. -/
theorem consultedTables_of_rules (hwf : WellFormed classes)
    (hrules : ∀ r, r ∈ s.fwRules ↔ ∃ cls ∈ classes, classRule cls = r) (hC : C ∈ classes) :
    C.routingTable ∈ consultedTables s C.mark ∧
      ∀ B ∈ classes, B ≠ C → B.routingTable ∉ consultedTables s C.mark := by
  constructor
  · exact mem_consultedTables.mpr ⟨classRule C, (hrules _).mpr ⟨C, hC, rfl⟩, rfl, rfl⟩
  · intro B hB hne hmem
    obtain ⟨r, hr, hmark, htable⟩ := mem_consultedTables.mp hmem
    obtain ⟨cls, hcls, rfl⟩ := (hrules r).mp hr
    obtain rfl := hwf.eq_of_mark hcls hC hmark
    exact hne (hwf.eq_of_routingTable hB hcls htable.symm)

/-- A packet with the classid of a class leaves `mangle` with its mark. -/
theorem traverseOutput_markRules (hwf : WellFormed classes) {t : Table}
    (hfree : t.Free kNetserviceChain)
    (hpass : ∀ p, ∃ q, t.traverseOutput foreign p = .passed q ∧ q.classid = p.classid)
    (hC : C ∈ classes) {p : Packet} (hp : p.classid = C.classid) :
    ∃ q, ((t.putChain kNetserviceChain (markRules classes)).putJump kNetserviceChain).traverseOutput
      foreign p = .passed q ∧ q.mark = C.mark := by
  obtain ⟨q, hq, hclassid⟩ := hpass p
  rw [hfree.traverseOutput_install, hq]
  exact ⟨_, traverse_markRules hwf.classids_nodup hC (hclassid.trans hp), rfl⟩

/-- A class is classified exactly when its directory holds its classid. -/
theorem classified_iff_holds (hwf : WellFormed classes) {t : Table}
    (hfree : t.Free kNetserviceChain)
    (hpass : ∀ p, ∃ q, t.traverseOutput foreign p = .passed q ∧ q.classid = p.classid)
    (hmangle : s.mangle =
      (t.putChain kNetserviceChain (markRules classes)).putJump kNetserviceChain)
    (hrules : ∀ r, r ∈ s.fwRules ↔ ∃ cls ∈ classes, classRule cls = r)
    (hC : C ∈ classes) (hheld : ∃ A ∈ classes, s.classidOf (host.classDir C) = A.classid) :
    Classified foreign host classes s C ↔ s.classidOf (host.classDir C) = C.classid := by
  obtain ⟨A, hA, hclassid⟩ := hheld
  constructor
  · intro h
    obtain ⟨q, hq, hmark, -⟩ := h ⟨[], A.classid, 0⟩ hclassid.symm
    obtain ⟨q', hq', hmark'⟩ := traverseOutput_markRules hwf hfree hpass hA
      (p := ⟨[], A.classid, 0⟩) rfl
    rw [hmangle, hq', Traversal.passed.injEq] at hq
    have hsame : A = C := hwf.eq_of_mark hA hC (by rw [← hmark', hq, hmark])
    rw [hclassid, hsame]
  · intro h p hp
    obtain ⟨q, hq, hmark⟩ := traverseOutput_markRules hwf hfree hpass hC (hp.trans h)
    refine ⟨q, by rw [hmangle, hq], hmark, ?_⟩
    rw [hmark]
    exact consultedTables_of_rules hwf hrules hC

end

/-- From a kernel without class cgroups, mark chain and policy rules, a set-up that goes through
classifies the packets of every class exactly when every two classes are kept apart. -/
theorem classified_iff_keptApart (foreign : Foreign) (host : Host)
    (cgroupFaults : Nat → Option CgroupFault) (markFaults : IptcFaults)
    (ruleFaults : Nat → Option NetlinkFault) (classes : List PathClassConfig) (k : Kernel)
    (hacc : Accepted classes) (hdirs : NoClassCgroups host k classes)
    (hchain : k.mangle.Free kNetserviceChain) (hrules : k.fwRules = [])
    (hpass : ∀ p, ∃ q, k.mangle.traverseOutput foreign p = .passed q ∧ q.classid = p.classid)
    (hok : (setUpClassification host cgroupFaults markFaults ruleFaults classes k).error = none) :
    (∀ C ∈ classes, Classified foreign host classes
        (setUpClassification host cgroupFaults markFaults ruleFaults classes k).state C) ↔
      classes.Pairwise (KeptApart host) := by
  have hwf := hacc.wellFormed
  unfold setUpClassification at hok ⊢
  rw [Attempt.andThen_error_eq_none, Attempt.andThen_error_eq_none] at hok
  obtain ⟨hok₁, hok₂, hok₃⟩ := hok
  rw [Attempt.andThen_of_ok hok₁, Attempt.andThen_of_ok hok₂]
  obtain ⟨hset, hholds⟩ := createCgroupHierarchy_ok hdirs hwf hok₁
  generalize (createCgroupHierarchy host cgroupFaults classes k).state = k₁ at *
  have hmark := installInto_ok hok₂
  rw [← addIptablesMarkRules] at hmark
  generalize (addIptablesMarkRules markFaults classes k₁).state = k₂ at *
  have hmem := fun r => mem_fwRules_of_addIpRules_ok hok₃ (r := r)
  obtain ⟨added, hstate, -⟩ := addIpRules_state ruleFaults classes k₂
  generalize (addIpRules ruleFaults classes k₂).state = k₃ at *
  have hk₁ := hset.frame
  have hmangle : k₃.mangle = (k.mangle.putChain kNetserviceChain
      (markRules classes)).putJump kNetserviceChain := by
    rw [hstate, hmark, hk₁]
  have hclassid : ∀ d, k₃.classidOf d = k₁.classidOf d := by
    intro d
    rw [hstate, hmark]
    rfl
  have hrules₃ : ∀ r, r ∈ k₃.fwRules ↔ ∃ cls ∈ classes, classRule cls = r := by
    intro r
    rw [hmem r, hmark, hk₁]
    simp [hrules]
  rw [← hholds]
  refine forall₂_congr fun C hC => ?_
  rw [classified_iff_holds hwf hchain hpass hmangle hrules₃ hC, hclassid]
  rw [hclassid]
  exact hset.classidOf_class C hC

theorem classified_iff_keptApart_shipped :
    let run := setUpClassification vlanHost (fun _ => none) (fun _ => false) (fun _ => none)
      pathPolicies bootedKernel
    run.error = none ∧
      ((∀ C ∈ pathPolicies, Classified (fun _ p => .passed p) vlanHost pathPolicies run.state C) ↔
        pathPolicies.Pairwise (KeptApart vlanHost)) := by
  have hok : (setUpClassification vlanHost (fun _ => none) (fun _ => false) (fun _ => none)
      pathPolicies bootedKernel).error = none := by decide
  refine ⟨hok, classified_iff_keptApart _ _ _ _ _ _ _ pathPolicies_accepted
    ⟨by decide, by decide⟩ ⟨by decide, by decide, by decide⟩ rfl ?_ hok⟩
  exact fun p => ⟨p, rfl, rfl⟩

/-- Two classes of one directory: the classid of the second overwrites that of the first, and the
packets of the first get the mark of the second. -/
theorem shared_directory_misclassifies :
    ¬ ∀ (foreign : Foreign) (host : Host) (cgroupFaults : Nat → Option CgroupFault)
        (markFaults : IptcFaults) (ruleFaults : Nat → Option NetlinkFault)
        (classes : List PathClassConfig) (k : Kernel), Accepted classes →
        NoClassCgroups host k classes → k.mangle.Free kNetserviceChain → k.fwRules = [] →
        (∀ p, ∃ q, k.mangle.traverseOutput foreign p = .passed q ∧ q.classid = p.classid) →
        (setUpClassification host cgroupFaults markFaults ruleFaults classes k).error = none →
        ∀ C ∈ classes, Classified foreign host classes
          (setUpClassification host cgroupFaults markFaults ruleFaults classes k).state C := by
  intro h
  have hclass := h (fun _ p => .passed p) vlanHost (fun _ => none) (fun _ => false) (fun _ => none)
    sharedDirPolicies bootedKernel sharedDirPolicies_accepted ⟨by decide, by decide⟩
    ⟨by decide, by decide, by decide⟩ rfl (fun p => ⟨p, rfl, rfl⟩) (by decide)
    (sharedDirPolicies.head (by decide)) (by decide)
  obtain ⟨q, hq, hmark, -⟩ := hclass ⟨Bytes.ascii "eth0.100", 0x00100002, 0⟩ (by decide)
  have hrun : (setUpClassification vlanHost (fun _ => none) (fun _ => false) (fun _ => none)
      sharedDirPolicies bootedKernel).state.mangle.traverseOutput (fun _ p => .passed p)
      ⟨Bytes.ascii "eth0.100", 0x00100002, 0⟩ =
        .passed ⟨Bytes.ascii "eth0.100", 0x00100002, 0x20⟩ := by decide
  rw [hrun, Traversal.passed.injEq] at hq
  rw [← hq] at hmark
  exact absurd hmark (by decide)

/-- A class right below another one: the classid 100001 that it inherits reads as 0x100001. -/
example :
    ¬ HoldsClassids vlanHost
      [policy "outer" 100001 "/sys/fs/cgroup/net_cls/outer" ["eth0.100"] true 100 0x10 false,
       policy "inner" 0x100001 "/sys/fs/cgroup/net_cls/outer/inner" ["eth0.200"] false 200 0x20 false]
      (createCgroupHierarchy vlanHost (fun _ => none)
        [policy "outer" 100001 "/sys/fs/cgroup/net_cls/outer" ["eth0.100"] true 100 0x10 false,
         policy "inner" 0x100001 "/sys/fs/cgroup/net_cls/outer/inner" ["eth0.200"] false 200 0x20
           false] bootedKernel).state := by
  unfold HoldsClassids
  decide

end WifiOffload
