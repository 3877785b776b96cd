import WifiOffload.Routing.Isolation

/-!
# The interfaces of a strict class

Every strict class writes drop rules against all the others, so two strict classes that list one
device keep each other off it. Apart from that, a strict class is kept off a device of its own
only where another configured name has the same device field.
-/

namespace WifiOffload

/-- No rule of the chain matches the packet. -/
def Unmatched (es : List Entry) (p : Packet) : Prop := ∀ e ∈ es, e.matchesPacket p = false

instance (es : List Entry) (p : Packet) : Decidable (Unmatched es p) :=
  inferInstanceAs (Decidable (∀ e ∈ es, _))

/-- A name that fits the field matches itself. -/
theorem fieldMatches_self {device : Bytes} (h : device.length < ifNamSiz) :
    fieldMatches device device = true := by
  rw [fieldMatches, Entry.matchesDevice, decide_eq_true_eq]
  intro i hi
  have hsize : ifNamSiz = 16 := rfl
  have hfill : device.length ≤ i → device.getD i 0 = 0 := by
    intro hle
    simp [List.getD_eq_getElem?_getD, hle]
  rw [outiface_buildDropEntry hi]
  by_cases hlt : i < min device.length (ifNamSiz - 1)
  · rw [if_pos hlt, UInt8.xor_self, UInt8.zero_and]
  · rw [if_neg hlt, hfill (by omega), UInt8.xor_self, UInt8.zero_and]

/-- Device names match only themselves. -/
theorem eq_of_fieldMatches {iface device : Bytes} (hiface : IsDeviceName iface)
    (hdevice : IsDeviceName device) (h : fieldMatches iface device = true) : iface = device := by
  have hname : namesDevice iface device := (fieldMatches_iff hdevice).mp h
  have hagree := Bytes.padTo_eq_padTo_iff.mp hname
  have hcut (i : Nat) (hi : i < ifNamSiz - 1) : iface.length ≤ i ↔ device.length ≤ i := by
    rw [← getD_eq_zero_iff hiface.2.2, hagree i hi, getD_eq_zero_iff hdevice.2.2]
  have hlen : iface.length = device.length := by
    have hsize : ifNamSiz = 16 := rfl
    have hl := hiface.2.1
    have hr := hdevice.2.1
    by_contra hne
    have hmin := hcut (min iface.length device.length) (by omega)
    omega
  apply List.ext_getElem hlen
  intro i hi hi'
  have hbyte := hagree i (by have := hiface.2.1; omega)
  simpa [List.getD_eq_getElem?_getD, hi, hi'] using hbyte

/-- A packet with the mark of a strict class is left alone exactly when every configured name with
the field of its device is listed by the class, and by no other strict class. -/
theorem unmatched_dropRules_iff {classes : List PathClassConfig} (hwf : WellFormed classes)
    {S : PathClassConfig} (hS : S ∈ classes) (hstrict : S.strictIsolation = true) {p : Packet}
    (hmark : p.mark = S.mark) :
    Unmatched (dropRules classes) p ↔
      ∀ B ∈ classes, ∀ iface ∈ B.interfaces, fieldMatches iface p.device = true →
        iface ∈ S.interfaces ∧ (B.strictIsolation = true → B = S) := by
  have hmatch := dropRules_match_iff hwf hS hstrict hmark
  have hunmatched : Unmatched (dropRules classes) p ↔
      ¬ ∃ e ∈ dropRules classes, e.matchesPacket p = true := by
    simp [Unmatched]
  rw [hunmatched, hmatch]
  grind

/-- Where no other class has a different name with its device field, a device of a strict class
is blocked for that class by the other strict classes that list it, and by nothing else. -/
theorem own_interface_unmatched_iff (classes : List PathClassConfig) (hacc : Accepted classes)
    (S : PathClassConfig) (hS : S ∈ classes) (hstrict : S.strictIsolation = true) (p : Packet)
    (hmark : p.mark = S.mark) (hdevice : p.device ∈ S.interfaces)
    (hlen : p.device.length < ifNamSiz)
    (hfield : ∀ B ∈ classes, B ≠ S → ∀ iface ∈ B.interfaces,
      fieldMatches iface p.device = true → iface = p.device) :
    Unmatched (dropRules classes) p ↔
      ∀ B ∈ classes, B.strictIsolation = true → B ≠ S → p.device ∉ B.interfaces := by
  rw [unmatched_dropRules_iff hacc.wellFormed hS hstrict hmark]
  constructor
  · intro h B hB hBstrict hne hmem
    exact hne ((h B hB p.device hmem (fieldMatches_self hlen)).2 hBstrict)
  · intro h B hB iface hi hmatch
    by_cases hBS : B = S
    · exact ⟨hBS ▸ hi, fun _ => hBS⟩
    · obtain rfl := hfield B hB hBS iface hi hmatch
      exact ⟨hdevice, fun hBstrict => absurd hi (h B hB hBstrict hBS)⟩

theorem lteB2b_own_interface :
    Unmatched (dropRules pathPolicies) (b2bPacket "eth0.300") := by
  have hnames : ∀ B ∈ pathPolicies, ∀ iface ∈ B.interfaces, IsDeviceName iface := by decide
  refine (own_interface_unmatched_iff pathPolicies pathPolicies_accepted lteB2b (by decide)
    (by decide) (b2bPacket "eth0.300") (by decide) (by decide) (by decide) ?_).mpr (by decide)
  intro B hB _ iface hi
  exact eq_of_fieldMatches (hnames B hB iface hi) (by decide)

/-- Two strict classes on one interface. -/
def rivalPolicies : List PathClassConfig :=
  [policy "lte_b2b" 0x00100003 "/sys/fs/cgroup/net_cls/lte_b2b" ["eth0.300"] false 300 0x30 true,
   policy "voice" 0x00100004 "/sys/fs/cgroup/net_cls/voice" ["eth0.300"] false 400 0x40 true]

theorem rivalPolicies_accepted : Accepted rivalPolicies :=
  ⟨64, .inr rfl, document
    [policyJson "lte_b2b" "0x00100003" "/sys/fs/cgroup/net_cls/lte_b2b" ["eth0.300"] false 300
        "0x30" true,
     policyJson "voice" "0x00100004" "/sys/fs/cgroup/net_cls/voice" ["eth0.300"] false 400
        "0x40" true], rfl⟩

/-- Each of them is kept off the interface that it lists. -/
theorem rivals_block_each_other :
    ¬ ∀ classes : List PathClassConfig, Accepted classes → ∀ S ∈ classes,
        S.strictIsolation = true → ∀ p : Packet, p.mark = S.mark → p.device ∈ S.interfaces →
        p.device.length < ifNamSiz → Unmatched (dropRules classes) p := by
  intro h
  have hnone := h rivalPolicies rivalPolicies_accepted (rivalPolicies.head (by decide))
    (by decide) (by decide) (b2bPacket "eth0.300") (by decide) (by decide) (by decide)
  exact absurd hnone (by decide)

end WifiOffload
