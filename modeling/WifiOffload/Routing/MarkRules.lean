import WifiOffload.Config.Accepted
import WifiOffload.Routing.Chains

/-!
# Mark rules

`addIptablesMarkRules`: the `mangle` chain that gives the packets of a class its mark. A packet
goes through all the rules, so with distinct classids it leaves with the mark of its class.
-/

namespace WifiOffload

def markRules (classes : List PathClassConfig) : List Entry :=
  classes.map fun cls => buildMarkEntry cls.classid cls.mark

def addIptablesMarkRules (faults : IptcFaults) (classes : List PathClassConfig) :
    Attempt Kernel RoutingError :=
  installInto faults kNetserviceChain (·.mangle) (fun t k => { k with mangle := t })
    (markRules classes)

def removeIptablesMarkRules (k : Kernel) : Kernel :=
  { k with mangle := removeChain kNetserviceChain k.mangle }

variable {foreign : Foreign} {onJump : Bytes → Packet → Traversal} {p : Packet}
  {classes : List PathClassConfig}

theorem effect_buildMarkEntry {classid mark : UInt32} :
    (buildMarkEntry classid mark).effect foreign onJump p =
      if p.classid = classid then .passed { p with mark } else .passed p := by
  have hdev : (buildMarkEntry classid mark).matchesDevice p.device = true := by
    rw [Entry.matchesDevice, decide_eq_true_eq]
    intro i hi
    have hzero : (buildMarkEntry classid mark).outifaceMask.val.getD i 0 = 0 := by
      simp [buildMarkEntry, CharArray.zero, List.getD_eq_getElem?_getD, hi]
    rw [hzero, UInt8.and_zero]
  have hpkt : (buildMarkEntry classid mark).matchesPacket p = decide (p.classid = classid) := by
    rw [Entry.matchesPacket, hdev]
    rfl
  have hmask : (p.mark &&& ~~~(0xFFFFFFFF : UInt32)) ^^^ mark = mark := by
    rw [show ~~~(0xFFFFFFFF : UInt32) = 0 from rfl, UInt32.and_zero, UInt32.zero_xor]
  rw [Entry.effect, hpkt]
  by_cases h : p.classid = classid
  · simpa [h, Entry.isOther, buildMarkEntry] using hmask
  · simp [h, Entry.isOther, buildMarkEntry]

/-- A packet of no class keeps its mark. -/
theorem traverse_markRules_of_ne (h : ∀ cls ∈ classes, p.classid ≠ cls.classid) :
    traverse (Entry.effect foreign onJump) (markRules classes) p = .passed p := by
  induction classes with
  | nil => rfl
  | cons cls classes ih =>
    rw [markRules, List.map_cons, traverse, effect_buildMarkEntry, if_neg (h cls (by simp))]
    exact ih fun c hc => h c (by simp [hc])

/-- A packet of a class gets the mark of the class. -/
theorem traverse_markRules (hwf : (classes.map (·.classid)).Nodup) {cls : PathClassConfig}
    (hcls : cls ∈ classes) (hp : p.classid = cls.classid) :
    traverse (Entry.effect foreign onJump) (markRules classes) p =
      .passed { p with mark := cls.mark } := by
  induction classes with
  | nil => cases hcls
  | cons c classes ih =>
    rw [List.map_cons, List.nodup_cons] at hwf
    rw [markRules, List.map_cons, traverse, effect_buildMarkEntry]
    by_cases hc : p.classid = c.classid
    · -- the first match is the only one
      rw [if_pos hc]
      have hrest : ∀ d ∈ classes, p.classid ≠ d.classid := fun d hd heq =>
        hwf.1 (List.mem_map.mpr ⟨d, hd, heq.symm.trans hc⟩)
      have hsame : cls = c := by
        rcases List.mem_cons.mp hcls with h | h
        · exact h
        · exact absurd hp (hrest cls h)
      rw [hsame]
      exact traverse_markRules_of_ne hrest
    · rw [if_neg hc]
      refine ih hwf.2 ((List.mem_cons.mp hcls).resolve_left fun h => hc ?_)
      rw [hp, h]

end WifiOffload
