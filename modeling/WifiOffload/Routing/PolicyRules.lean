import WifiOffload.Kernel.Netlink

/-!
# Policy rules

`sendNetlinkFwmarkRule`, `addIpRules` and `removeIpRules`: one rule per class that sends the mark
of the class to its routing table. An add of a rule that exists and a delete of one that does
not count as done; nothing removes a rule that no class asks for.
-/

namespace WifiOffload

def kIpRulePriority : UInt32 := 32765

inductive RuleMsgType where
  | newRule | delRule
  deriving DecidableEq, Repr

/-- `sendNetlinkFwmarkRule`; a new rule is sent with `NLM_F_CREATE | NLM_F_EXCL`. -/
def sendNetlinkFwmarkRule (fault : Option NetlinkFault) (fwmark table : UInt32) :
    RuleMsgType → Attempt Kernel RoutingError
  | .newRule => exchange fault .eexist fun k => k.newRule ⟨kIpRulePriority, fwmark, table⟩
  | .delRule => exchange fault .enoent fun k => k.delRule ⟨kIpRulePriority, fwmark, table⟩

def addIpRules (faults : Nat → Option NetlinkFault) (classes : List PathClassConfig) :
    Attempt Kernel RoutingError :=
  Attempt.eachFrom
    (fun i cls => sendNetlinkFwmarkRule (faults i) cls.mark cls.routingTable .newRule) 0 classes

/-- A delete that fails is logged and the next one is sent. -/
def removeIpRules (classes : List PathClassConfig) (k : Kernel) : Kernel :=
  classes.foldl (fun k cls =>
    (sendNetlinkFwmarkRule none cls.mark cls.routingTable .delRule k).state) k

/-- The rule of a class. -/
def classRule (cls : PathClassConfig) : FwRule := ⟨kIpRulePriority, cls.mark, cls.routingTable⟩

/-- The tables that the policy rules consult for a mark. Every packet also meets the rules that the
kernel starts with (tables 255, 254 and 253), which ask for no mark and are left out here. -/
def consultedTables (k : Kernel) (mark : UInt32) : List UInt32 :=
  (k.fwRules.filter (·.fwmark = mark)).map (·.table)

section

variable {k : Kernel} {cls : PathClassConfig} {classes : List PathClassConfig}

theorem newRule_of_mem (h : classRule cls ∈ k.fwRules) :
    k.newRule ⟨kIpRulePriority, cls.mark, cls.routingTable⟩ = .error .eexist := if_pos h

theorem newRule_of_not_mem (h : classRule cls ∉ k.fwRules) :
    k.newRule ⟨kIpRulePriority, cls.mark, cls.routingTable⟩ =
      .ok { k with fwRules := k.fwRules ++ [classRule cls] } := if_neg h

theorem sendNewRule_state (fault : Option NetlinkFault) (cls : PathClassConfig) (k : Kernel) :
    (sendNetlinkFwmarkRule fault cls.mark cls.routingTable .newRule k).state = k ∨
      (classRule cls ∉ k.fwRules ∧
        (sendNetlinkFwmarkRule fault cls.mark cls.routingTable .newRule k).state =
          { k with fwRules := k.fwRules ++ [classRule cls] }) := by
  refine exchange_state_cases.imp_right fun h => ?_
  by_cases hmem : classRule cls ∈ k.fwRules
  · rw [newRule_of_mem hmem] at h
    cases h
  · rw [newRule_of_not_mem hmem] at h
    exact ⟨hmem, (Except.ok.inj h).symm⟩

theorem mem_of_sendNewRule_ok {fault : Option NetlinkFault}
    (h : (sendNetlinkFwmarkRule fault cls.mark cls.routingTable .newRule k).error = none) :
    classRule cls ∈
      (sendNetlinkFwmarkRule fault cls.mark cls.routingTable .newRule k).state.fwRules := by
  cases fault with
  | none =>
    by_cases hmem : classRule cls ∈ k.fwRules
    · rw [sendNetlinkFwmarkRule, exchange_of_tolerated (newRule_of_mem hmem)]
      exact hmem
    · rw [sendNetlinkFwmarkRule, exchange_of_ok (newRule_of_not_mem hmem)]
      simp
  | some f => exact absurd h exchange_error_of_fault

/-- Whatever an add has got done, it has added rules of classes, each of them once. -/
theorem addIpRules_state (faults : Nat → Option NetlinkFault) (classes : List PathClassConfig)
    (k : Kernel) : ∃ added, (addIpRules faults classes k).state =
      { k with fwRules := k.fwRules ++ added } ∧ added.Nodup ∧ (∀ r ∈ added, r ∉ k.fwRules) ∧
        added ⊆ classes.map classRule := by
  refine Attempt.eachFrom_preserves (s := k) (P := fun s => ∃ added, s =
      { k with fwRules := k.fwRules ++ added } ∧ added.Nodup ∧ (∀ r ∈ added, r ∉ k.fwRules) ∧
        added ⊆ classes.map classRule) ?_ 0 ⟨[], by simp⟩
  rintro i cls hcls s ⟨added, rfl, hnodup, hnew, hsub⟩
  rcases sendNewRule_state (faults i) cls { k with fwRules := k.fwRules ++ added } with
    heq | ⟨hmem, heq⟩
  · exact ⟨added, heq, hnodup, hnew, hsub⟩
  · have hnot : classRule cls ∉ k.fwRules ∧ classRule cls ∉ added := by simpa using hmem
    refine ⟨added ++ [classRule cls], by rw [heq, List.append_assoc], ?_, ?_, ?_⟩
    · rw [List.nodup_append]
      exact ⟨hnodup, by simp, by grind⟩
    · grind
    · grind

/-- An add that goes through leaves the rules that were there and those of the classes. -/
theorem mem_fwRules_of_addIpRules_ok {faults : Nat → Option NetlinkFault}
    (hok : (addIpRules faults classes k).error = none) {r : FwRule} :
    r ∈ (addIpRules faults classes k).state.fwRules ↔
      r ∈ k.fwRules ∨ ∃ cls ∈ classes, classRule cls = r := by
  obtain ⟨added, hstate, -, -, hsub⟩ := addIpRules_state faults classes k
  have hall : ∀ cls ∈ [] ++ classes,
      classRule cls ∈ (addIpRules faults classes k).state.fwRules := by
    refine Attempt.eachFrom_invariant
      (P := fun done s => ∀ cls ∈ done, classRule cls ∈ s.fwRules) ?_ 0 [] (by simp) hok
    intro i cls _ done s hdone hone c hc
    rcases List.mem_append.mp hc with hc | hc
    · rcases sendNewRule_state (faults i) cls s with heq | ⟨-, heq⟩
      · rw [heq]; exact hdone c hc
      · rw [heq]; simp [hdone c hc]
    · rw [List.mem_singleton.mp hc]
      exact mem_of_sendNewRule_ok hone
  rw [hstate] at hall ⊢
  constructor
  · intro hr
    exact (List.mem_append.mp hr).imp_right fun h => List.mem_map.mp (hsub h)
  · rintro (hr | ⟨cls, hcls, rfl⟩)
    · exact List.mem_append_left _ hr
    · exact hall cls (by simpa using hcls)

/-- A delete without faults counts as done, whether or not the rule was there. -/
theorem sendDelRule : sendNetlinkFwmarkRule none cls.mark cls.routingTable .delRule k =
    ⟨{ k with fwRules := k.fwRules.erase (classRule cls) }, none⟩ := by
  by_cases hmem : classRule cls ∈ k.fwRules
  · have hreq : k.delRule ⟨kIpRulePriority, cls.mark, cls.routingTable⟩ =
        .ok { k with fwRules := k.fwRules.erase (classRule cls) } := if_pos hmem
    rw [sendNetlinkFwmarkRule, exchange_of_ok hreq]
  · have hreq : k.delRule ⟨kIpRulePriority, cls.mark, cls.routingTable⟩ = .error .enoent :=
      if_neg hmem
    rw [sendNetlinkFwmarkRule, exchange_of_tolerated hreq, List.erase_of_not_mem hmem]

theorem removeIpRules_state (classes : List PathClassConfig) (k : Kernel) :
    removeIpRules classes k = { k with fwRules := k.fwRules.diff (classes.map classRule) } := by
  induction classes generalizing k with
  | nil => rfl
  | cons cls classes ih =>
    rw [removeIpRules, List.foldl_cons, sendDelRule]
    exact (ih _).trans (by rw [List.map_cons, List.diff_cons])

theorem diff_append_of_added {rules added asked : List FwRule} (hnodup : added.Nodup)
    (hsub : added ⊆ asked) (hnew : ∀ r ∈ asked, r ∉ rules) :
    (rules ++ added).diff asked = rules := by
  have hdiff : (rules ++ added).diff asked = rules ++ added.diff asked := by
    clear hnodup hsub
    induction asked generalizing added with
    | nil => rfl
    | cons r asked ih =>
      rw [List.diff_cons, List.diff_cons, List.erase_append_right _ (hnew r (by simp)),
        ih fun q hq => hnew q (by simp [hq])]
  have hnil : added.diff asked = [] :=
    List.eq_nil_iff_forall_not_mem.mpr fun r hr =>
      (hnodup.mem_sdiff_iff.mp hr).2 (hsub (hnodup.mem_sdiff_iff.mp hr).1)
  rw [hdiff, hnil, List.append_nil]

/-- Where no rule of a class was there before, removing the rules of the classes undoes an add,
however far it got. -/
theorem removeIpRules_addIpRules (faults : Nat → Option NetlinkFault)
    (hnew : ∀ cls ∈ classes, classRule cls ∉ k.fwRules) :
    removeIpRules classes (addIpRules faults classes k).state = k := by
  obtain ⟨added, hstate, hnodup, -, hsub⟩ := addIpRules_state faults classes k
  rw [removeIpRules_state, hstate, diff_append_of_added hnodup hsub]
  intro r hr
  obtain ⟨cls, hcls, rfl⟩ := List.mem_map.mp hr
  exact hnew cls hcls

end

end WifiOffload
