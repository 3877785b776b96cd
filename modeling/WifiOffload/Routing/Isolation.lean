import WifiOffload.Config.Accepted
import WifiOffload.Routing.Chains

/-!
# Strict isolation

`addDropRules` of `routing_policy_manager.cpp` and what its rules drop. The rules name the
interfaces of the configuration only, cut to the 15 bytes of a device name, so a packet with the
mark of a strict class is dropped on the devices that some rule names and on no others.
-/

namespace WifiOffload

/-- The interfaces of all classes, without repetition. -/
def allIfaces (classes : List PathClassConfig) : List Bytes :=
  (classes.flatMap (·.interfaces)).foldl
    (fun found iface => if iface ∈ found then found else found ++ [iface]) []

/-- (a) the traffic of `S` must not leave on an interface that `S` does not list;
(b) the traffic of every other class must not leave on an interface of `S`. -/
def dropRulesOf (classes : List PathClassConfig) (S : PathClassConfig) : List Entry :=
  ((allIfaces classes).filter (· ∉ S.interfaces)).map (fun iface => buildDropEntry iface S.mark) ++
    (classes.filter (·.id ≠ S.id)).flatMap fun B =>
      S.interfaces.map fun iface => buildDropEntry iface B.mark

def dropRules (classes : List PathClassConfig) : List Entry :=
  (classes.filter (·.strictIsolation)).flatMap (dropRulesOf classes)

def anyIsolation (classes : List PathClassConfig) : Bool := classes.any (·.strictIsolation)

theorem anyIsolation_iff {classes : List PathClassConfig} :
    anyIsolation classes = true ↔ ∃ cls ∈ classes, cls.strictIsolation = true :=
  List.any_eq_true

def addDropRules (faults : IptcFaults) (classes : List PathClassConfig) :
    Attempt Kernel RoutingError :=
  if anyIsolation classes then
    installInto faults kIsoChain (·.filter) (fun t k => { k with filter := t }) (dropRules classes)
  else Attempt.succeed id

def removeDropRules (k : Kernel) : Kernel := { k with filter := removeChain kIsoChain k.filter }

theorem mem_allIfaces {classes : List PathClassConfig} {iface : Bytes} :
    iface ∈ allIfaces classes ↔ ∃ cls ∈ classes, iface ∈ cls.interfaces := by
  have hfold : ∀ (xs found : List Bytes),
      iface ∈ xs.foldl (fun found i => if i ∈ found then found else found ++ [i]) found ↔
        iface ∈ found ∨ iface ∈ xs := by
    intro xs
    induction xs with
    | nil => simp
    | cons x xs ih =>
      intro found
      rw [List.foldl_cons, ih]
      split <;> grind
  rw [allIfaces, hfold]
  simp [List.mem_flatMap]

/-- A run of `addDropRules` that goes through leaves the table as it was, without a strict
class, and otherwise with the drop rules in the chain and a jump to it. -/
theorem addDropRules_ok {faults : IptcFaults} {classes : List PathClassConfig} {k : Kernel}
    (hok : (addDropRules faults classes k).error = none) :
    (addDropRules faults classes k).state =
      if anyIsolation classes then
        { k with filter := (k.filter.putChain kIsoChain (dropRules classes)).putJump kIsoChain }
      else k := by
  unfold addDropRules at hok ⊢
  split
  · next hany =>
    rw [if_pos hany] at hok
    exact installInto_ok hok
  · rfl

theorem addDropRules_state (faults : IptcFaults) (classes : List PathClassConfig) (k : Kernel) :
    (addDropRules faults classes k).state = k ∨ (addDropRules faults classes k).state =
      { k with filter := (k.filter.putChain kIsoChain (dropRules classes)).putJump kIsoChain } := by
  unfold addDropRules
  split
  · exact installInto_state ..
  · exact .inl rfl

/-! ## What a drop rule matches -/

/-- A device name as the system has them: 1 to 15 bytes, none of them zero. -/
def IsDeviceName (device : Bytes) : Prop :=
  1 ≤ device.length ∧ device.length < ifNamSiz ∧ 0 ∉ device

instance (device : Bytes) : Decidable (IsDeviceName device) :=
  inferInstanceAs (Decidable (_ ∧ _ ∧ _))

/-- A configured name and a device agree on the 15 bytes that a rule can hold. -/
def namesDevice (iface device : Bytes) : Prop :=
  Bytes.padTo (ifNamSiz - 1) iface = Bytes.padTo (ifNamSiz - 1) device

instance (iface device : Bytes) : Decidable (namesDevice iface device) :=
  inferInstanceAs (Decidable (_ = _))

theorem namesDevice_self (device : Bytes) : namesDevice device device := rfl

/-- A byte without zero bytes before its end is zero exactly from its end on. -/
theorem getD_eq_zero_iff {device : Bytes} (h : 0 ∉ device) {i : Nat} :
    device.getD i 0 = 0 ↔ device.length ≤ i := by
  constructor
  · intro hi
    by_contra hlt
    have hlt : i < device.length := by omega
    rw [List.getD_eq_getElem?_getD, List.getElem?_eq_getElem hlt, Option.getD_some] at hi
    exact h (hi ▸ List.getElem_mem hlt)
  · intro hle
    simp [List.getD_eq_getElem?_getD, hle]

theorem outiface_buildDropEntry {iface : Bytes} {mark : UInt32} {i : Nat} (hi : i < ifNamSiz) :
    (buildDropEntry iface mark).outiface.val.getD i 0 =
      if i < min iface.length (ifNamSiz - 1) then iface.getD i 0 else 0 := by
  rw [buildDropEntry, Bytes.getD_padTo hi, List.getD_eq_getElem?_getD, List.getElem?_take]
  split
  · rw [List.getD_eq_getElem?_getD]
  · rfl

theorem outifaceMask_buildDropEntry {iface : Bytes} {mark : UInt32} {i : Nat}
    (hi : i < ifNamSiz) :
    (buildDropEntry iface mark).outifaceMask.val.getD i 0 =
      if i ≤ min iface.length (ifNamSiz - 1) then 0xFF else 0 := by
  rw [buildDropEntry, Bytes.getD_padTo hi]
  by_cases hn : i ≤ min iface.length (ifNamSiz - 1) <;>
    simp [List.getD_eq_getElem?_getD, hn]

/-- A rule that is built for `iface` matches packets on the device. -/
def fieldMatches (iface device : Bytes) : Bool := (buildDropEntry iface 0).matchesDevice device

theorem matchesPacket_buildDropEntry {iface : Bytes} {mark : UInt32} {p : Packet} :
    (buildDropEntry iface mark).matchesPacket p = true ↔
      fieldMatches iface p.device = true ∧ p.mark = mark := by
  have hmark : p.mark &&& 0xFFFFFFFF = p.mark := UInt32.and_neg_one
  have hdev : (buildDropEntry iface mark).matchesDevice p.device =
      fieldMatches iface p.device := rfl
  rw [Entry.matchesPacket, Bool.and_eq_true, hdev]
  simp [buildDropEntry, hmark]

/-- On a device as the system has them, the field stands for the name cut to 15 bytes. -/
theorem fieldMatches_iff {iface device : Bytes} (hdevice : IsDeviceName device) :
    fieldMatches iface device = true ↔ namesDevice iface device := by
  obtain ⟨-, hlen, hzero⟩ := hdevice
  have hbit (a b : UInt8) : (a ^^^ b) &&& 0xFF = 0 ↔ a = b := by
    rw [show (0xFF : UInt8) = -1 from rfl, UInt8.and_neg_one, UInt8.xor_eq_zero_iff]
  have hsize : ifNamSiz = 16 := rfl
  have hfill (i : Nat) (hi : iface.length ≤ i) : iface.getD i 0 = 0 := by
    simp [List.getD_eq_getElem?_getD, hi]
  obtain ⟨n, hn⟩ : ∃ n, n = min iface.length (ifNamSiz - 1) := ⟨_, rfl⟩
  rw [fieldMatches, Entry.matchesDevice, decide_eq_true_eq, namesDevice,
    Bytes.padTo_eq_padTo_iff]
  constructor
  · intro h i hi
    have hagree (j : Nat) (hj : j ≤ n) : device.getD j 0 = if j < n then iface.getD j 0 else 0 := by
      have hj16 : j < ifNamSiz := by omega
      have hbits := h j hj16
      rwa [outiface_buildDropEntry hj16, outifaceMask_buildDropEntry hj16, ← hn, if_pos hj,
        hbit] at hbits
    by_cases hin : i < n
    · rw [hagree i (by omega), if_pos hin]
    · -- behind the cut name both are filled with zero bytes
      have hend : device.length ≤ n := by
        rw [← getD_eq_zero_iff hzero, hagree n (Nat.le_refl n), if_neg (by omega)]
      have hdev : device.getD i 0 = 0 := (getD_eq_zero_iff hzero).mpr (by omega)
      rw [hdev, hfill i (by omega)]
  · intro h i hi
    rw [outiface_buildDropEntry hi, outifaceMask_buildDropEntry hi, ← hn]
    by_cases hin : i ≤ n
    · rw [if_pos hin, hbit]
      by_cases hlt : i < n
      · rw [if_pos hlt, h i (by omega)]
      · -- the byte after the cut name
        rw [if_neg hlt, getD_eq_zero_iff hzero]
        by_cases hcut : i < ifNamSiz - 1
        · have hiface := h i hcut
          rw [hfill i (by omega)] at hiface
          exact (getD_eq_zero_iff hzero).mp hiface.symm
        · omega
    · rw [if_neg hin, UInt8.and_zero]

/-! ## What the installed rules drop -/

/-- The filter table drops the packet. -/
def Dropped (foreign : Foreign) (k : Kernel) (p : Packet) : Prop :=
  k.filter.traverseOutput foreign p = .dropped

instance (foreign : Foreign) (k : Kernel) (p : Packet) : Decidable (Dropped foreign k p) :=
  inferInstanceAs (Decidable (_ = _))

theorem mem_dropRules {classes : List PathClassConfig} {e : Entry} :
    e ∈ dropRules classes ↔ ∃ S ∈ classes, S.strictIsolation = true ∧
      ((∃ B ∈ classes, ∃ iface ∈ B.interfaces, iface ∉ S.interfaces ∧
          e = buildDropEntry iface S.mark) ∨
        ∃ B ∈ classes, B.id ≠ S.id ∧ ∃ iface ∈ S.interfaces, e = buildDropEntry iface B.mark) := by
  simp only [dropRules, dropRulesOf, List.mem_flatMap, List.mem_filter, List.mem_append,
    List.mem_map, mem_allIfaces, decide_eq_true_eq]
  grind

theorem eq_buildDropEntry_of_mem {classes : List PathClassConfig} {e : Entry}
    (h : e ∈ dropRules classes) : ∃ iface mark, e = buildDropEntry iface mark := by
  obtain ⟨S, -, -, ⟨-, -, iface, -, -, rfl⟩ | ⟨B, -, -, iface, -, rfl⟩⟩ := mem_dropRules.mp h
  · exact ⟨iface, S.mark, rfl⟩
  · exact ⟨iface, B.mark, rfl⟩

/-- A rule of the chain drops what it matches and leaves any other packet alone. -/
theorem effect_of_mem_dropRules {foreign : Foreign} {onJump : Bytes → Packet → Traversal}
    {classes : List PathClassConfig} {e : Entry} (he : e ∈ dropRules classes) {p : Packet} :
    e.effect foreign onJump p = if e.matchesPacket p = true then .dropped else .passed p := by
  obtain ⟨iface, mark, rfl⟩ := eq_buildDropEntry_of_mem he
  rfl

theorem effect_dropRules {foreign : Foreign} {onJump : Bytes → Packet → Traversal}
    {classes : List PathClassConfig} {p : Packet} : ∀ e ∈ dropRules classes,
      e.effect foreign onJump p = .dropped ∨ e.effect foreign onJump p = .passed p := by
  intro e he
  rw [effect_of_mem_dropRules he]
  split
  · exact .inl rfl
  · exact .inr rfl

theorem traverse_dropRules {foreign : Foreign} {onJump : Bytes → Packet → Traversal}
    {classes : List PathClassConfig} {p : Packet} :
    traverse (Entry.effect foreign onJump) (dropRules classes) p = .dropped ↔
      ∃ e ∈ dropRules classes, e.matchesPacket p = true := by
  rw [traverse_eq_dropped_iff effect_dropRules]
  apply exists_congr
  intro e
  apply and_congr_right
  intro he
  rw [effect_of_mem_dropRules he]
  simp

/-- After a set-up with a strict class, a packet is dropped exactly when a rule matches it. -/
theorem dropped_iff {foreign : Foreign} {faults : IptcFaults} {classes : List PathClassConfig}
    {k : Kernel} (hout : ∀ e ∈ k.filter.output, e = buildJumpEntry kIsoChain)
    (hok : (addDropRules faults classes k).error = none) (hany : anyIsolation classes = true)
    {p : Packet} : Dropped foreign (addDropRules faults classes k).state p ↔
      ∃ e ∈ dropRules classes, e.matchesPacket p = true := by
  rw [Dropped, addDropRules_ok hok, if_pos hany]
  obtain ⟨t, ht⟩ : ∃ t, t = (k.filter.putChain kIsoChain (dropRules classes)).putJump kIsoChain :=
    ⟨_, rfl⟩
  have hrules : t.rules kIsoChain = dropRules classes := by
    rw [Table.rules, ht, Table.chains_putJump, Table.lookup_putChain, Option.getD_some]
  have hjumps : ∀ e ∈ t.output, e = buildJumpEntry kIsoChain := by
    rw [ht]
    intro e he
    exact (Table.mem_output_putJump.mp he).elim (fun h => hout e (by simpa using h)) (·.1)
  obtain ⟨jump, hjump, -⟩ : ∃ e ∈ t.output, e.target.name = kIsoChain :=
    ht ▸ Table.exists_jump_putJump
  -- every rule of `OUTPUT` does what the chain does
  have heffect : ∀ e ∈ t.output, e.effect foreign (fun chain q =>
      traverse (Entry.effect foreign fun _ r => .passed r) (t.rules chain) q) p =
        traverse (Entry.effect foreign fun _ r => .passed r) (dropRules classes) p := by
    intro e he
    rw [hjumps e he, effect_buildJumpEntry, hrules]
  rw [← ht, Table.traverseOutput, traverse_eq_dropped_iff, ← traverse_dropRules]
  · constructor
    · rintro ⟨e, he, hd⟩
      exact heffect e he ▸ hd
    · exact fun hd => ⟨jump, hjump, (heffect jump hjump).trans hd⟩
  · intro e he
    rw [heffect e he]
    exact traverse_dropped_or_passed effect_dropRules

/-! ## Isolation -/

/-- The guarantee for one packet: it is dropped when it carries the mark of `S` on a device that
`S` does not list, or the mark of another class on a device of `S`. -/
def IsolatedAt (foreign : Foreign) (k : Kernel) (classes : List PathClassConfig)
    (S : PathClassConfig) (p : Packet) : Prop :=
  (p.mark = S.mark ∧ p.device ∉ S.interfaces) ∨
      (∃ B ∈ classes, B ≠ S ∧ p.mark = B.mark ∧ p.device ∈ S.interfaces) →
    Dropped foreign k p

/-- Some rule for the mark of `S` names the device: it stands for a configured interface that `S`
does not list, or for one of another strict class. -/
def CoversDevice (classes : List PathClassConfig) (S : PathClassConfig) (device : Bytes) : Prop :=
  ∃ B ∈ classes, ∃ iface ∈ B.interfaces, namesDevice iface device ∧
    (iface ∉ S.interfaces ∨ (B.strictIsolation = true ∧ B ≠ S))

/-- The rules that match a packet with the mark of a strict class: its own, for a name that it
does not list, and those of the other strict classes, for the names that they list. -/
theorem dropRules_match_iff {classes : List PathClassConfig} (hwf : WellFormed classes)
    {S : PathClassConfig} (hS : S ∈ classes) (hstrict : S.strictIsolation = true) {p : Packet}
    (hmark : p.mark = S.mark) :
    (∃ e ∈ dropRules classes, e.matchesPacket p = true) ↔
      ∃ B ∈ classes, ∃ iface ∈ B.interfaces, fieldMatches iface p.device = true ∧
        (iface ∉ S.interfaces ∨ (B.strictIsolation = true ∧ B ≠ S)) := by
  constructor
  · rintro ⟨e, he, hmatch⟩
    obtain ⟨T, hT, hTstrict, ⟨B, hB, iface, hi, hnot, rfl⟩ | ⟨B, hB, hid, iface, hi, rfl⟩⟩ :=
      mem_dropRules.mp he
    · obtain ⟨hfield, hTmark⟩ := matchesPacket_buildDropEntry.mp hmatch
      obtain rfl := hwf.eq_of_mark hS hT (hmark.symm.trans hTmark)
      exact ⟨B, hB, iface, hi, hfield, .inl hnot⟩
    · obtain ⟨hfield, hBmark⟩ := matchesPacket_buildDropEntry.mp hmatch
      obtain rfl := hwf.eq_of_mark hS hB (hmark.symm.trans hBmark)
      exact ⟨T, hT, iface, hi, hfield, .inr ⟨hTstrict, fun h => hid (h ▸ rfl)⟩⟩
  · rintro ⟨B, hB, iface, hi, hfield, hrule⟩
    refine ⟨buildDropEntry iface S.mark, mem_dropRules.mpr ?_,
      matchesPacket_buildDropEntry.mpr ⟨hfield, hmark⟩⟩
    rcases hrule with hnot | ⟨hBstrict, hne⟩
    · exact ⟨S, hS, hstrict, .inl ⟨B, hB, iface, hi, hnot, rfl⟩⟩
    · refine ⟨B, hB, hBstrict, .inr ⟨S, hS, ?_, iface, hi, rfl⟩⟩
      exact fun hid => hne (hwf.eq_of_id hS hB hid).symm

-- The name `vlan-backhaul-10` of another class is cut to the device of the strict class.
example :
    let b2b := policy "lte_b2b" 0x00100003 "/sys/fs/cgroup/net_cls/lte_b2b" ["vlan-backhaul-1"]
      false 300 0x30 true
    let b2c := policy "lte_b2c" 0x00100002 "/sys/fs/cgroup/net_cls/lte_b2c" ["vlan-backhaul-10"]
      false 200 0x20 false
    let device := Bytes.ascii "vlan-backhaul-1"
    ∃ e ∈ dropRules [b2b, b2c],
      e.matchesPacket { device, classid := 0x00100003, mark := 0x30 } = true := by
  decide +kernel

/-- The rules for the mark of a strict class are the ones that cover it. -/
theorem coversDevice_iff {classes : List PathClassConfig} (hwf : WellFormed classes)
    {S : PathClassConfig} (hS : S ∈ classes) (hstrict : S.strictIsolation = true) {p : Packet}
    (hmark : p.mark = S.mark) (hdev : IsDeviceName p.device) :
    (∃ e ∈ dropRules classes, e.matchesPacket p = true) ↔ CoversDevice classes S p.device := by
  rw [dropRules_match_iff hwf hS hstrict hmark]
  simp only [fieldMatches_iff hdev]
  rfl

/-- The traffic of other classes is kept off every interface of a strict class. -/
theorem dropped_on_strict_interface {foreign : Foreign} {faults : IptcFaults}
    {classes : List PathClassConfig} {k : Kernel} (hwf : WellFormed classes)
    (hout : ∀ e ∈ k.filter.output, e = buildJumpEntry kIsoChain)
    (hok : (addDropRules faults classes k).error = none) {S B : PathClassConfig}
    (hS : S ∈ classes) (hstrict : S.strictIsolation = true) (hB : B ∈ classes) (hne : B ≠ S)
    {p : Packet} (hdev : IsDeviceName p.device) (hmark : p.mark = B.mark)
    (hmem : p.device ∈ S.interfaces) : Dropped foreign (addDropRules faults classes k).state p := by
  have hany : anyIsolation classes = true := List.any_eq_true.mpr ⟨S, hS, hstrict⟩
  have hfield : fieldMatches p.device p.device = true :=
    (fieldMatches_iff hdev).mpr (namesDevice_self _)
  refine (dropped_iff hout hok hany).mpr ⟨buildDropEntry p.device B.mark, mem_dropRules.mpr ?_,
    matchesPacket_buildDropEntry.mpr ⟨hfield, hmark⟩⟩
  exact ⟨S, hS, hstrict, .inr ⟨B, hB, fun hid => hne (hwf.eq_of_id hB hS hid), p.device, hmem,
    rfl⟩⟩

/-- A strict class is isolated at a packet exactly when the packet does not carry its mark, or
leaves on a device that the class lists or that some rule for its mark names. -/
theorem isolatedAt_iff (foreign : Foreign) (faults : IptcFaults) (classes : List PathClassConfig)
    (k : Kernel) (hacc : Accepted classes)
    (hout : ∀ e ∈ k.filter.output, e = buildJumpEntry kIsoChain)
    (hok : (addDropRules faults classes k).error = none) (S : PathClassConfig) (hS : S ∈ classes)
    (hstrict : S.strictIsolation = true) (p : Packet) (hdev : IsDeviceName p.device) :
    IsolatedAt foreign (addDropRules faults classes k).state classes S p ↔
      (p.mark = S.mark → p.device ∉ S.interfaces → CoversDevice classes S p.device) := by
  have hwf := hacc.wellFormed
  have hany : anyIsolation classes = true := List.any_eq_true.mpr ⟨S, hS, hstrict⟩
  have hcovers : p.mark = S.mark → (Dropped foreign (addDropRules faults classes k).state p ↔
      CoversDevice classes S p.device) := by
    intro hmark
    rw [dropped_iff hout hok hany, coversDevice_iff hwf hS hstrict hmark hdev]
  constructor
  · exact fun h hmark hnot => (hcovers hmark).mp (h (.inl ⟨hmark, hnot⟩))
  · rintro h (⟨hmark, hnot⟩ | ⟨B, hB, hne, hmark, hmem⟩)
    · exact (hcovers hmark).mpr (h hmark hnot)
    · exact dropped_on_strict_interface hwf hout hok hS hstrict hB hne hdev hmark hmem

/-- The strict class `lte_b2b` of the shipped configuration on `eth0.100`. -/
def b2bPacket (device : String) : Packet :=
  { device := Bytes.ascii device, classid := 0x00100003, mark := 0x30 }

def lteB2b : PathClassConfig := pathPolicies.getLast (by decide)

theorem isolatedAt_listed_device :
    (addDropRules (fun _ => false) pathPolicies {}).error = none ∧
      (IsolatedAt (fun _ p => .passed p) (addDropRules (fun _ => false) pathPolicies {}).state
          pathPolicies lteB2b (b2bPacket "eth0.100") ↔
        ((b2bPacket "eth0.100").mark = lteB2b.mark →
          (b2bPacket "eth0.100").device ∉ lteB2b.interfaces →
          CoversDevice pathPolicies lteB2b (b2bPacket "eth0.100").device)) :=
  have hok : (addDropRules (fun _ => false) pathPolicies {}).error = none := by decide
  ⟨hok, isolatedAt_iff _ _ pathPolicies {} pathPolicies_accepted (by simp) hok lteB2b (by decide)
    (by decide) (b2bPacket "eth0.100") (by decide)⟩

/-- On a device that the configuration does not name, the traffic of the strict class gets out. -/
theorem strict_class_leaks :
    ¬ ∀ (foreign : Foreign) (faults : IptcFaults) (classes : List PathClassConfig) (k : Kernel),
        Accepted classes → (∀ e ∈ k.filter.output, e = buildJumpEntry kIsoChain) →
        (addDropRules faults classes k).error = none → ∀ S ∈ classes, S.strictIsolation = true →
        ∀ p : Packet, IsDeviceName p.device →
        IsolatedAt foreign (addDropRules faults classes k).state classes S p := by
  intro h
  have hdrop := h (fun _ p => .passed p) (fun _ => false) pathPolicies {} pathPolicies_accepted
    (by simp) (by decide) lteB2b (by decide) (by decide) (b2bPacket "wlan0") (by decide)
    (.inl (by decide))
  exact absurd hdrop (by decide)

end WifiOffload
