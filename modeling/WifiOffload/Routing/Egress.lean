import WifiOffload.Routing.Classification
import WifiOffload.Routing.Isolation

/-!
# Where traffic leaves

The way of a packet through what the daemon sets up. It is routed before it has a mark, and without
a route it is not sent; the tables of `OUTPUT` see the device of this first lookup. `mangle` gives
it the mark of its class, with which it is routed again, to the table that the policy rules name.
A lookup that finds no route there goes on to the tables of the system, so that a class whose path
is down shares the way of unmarked traffic. Destinations are off the host.
-/

namespace WifiOffload

/-- The packet that goes on behind a table, if one does. -/
def Traversal.packet : Traversal → Option Packet
  | .passed p | .accepted p => some p
  | .dropped => none

@[simp] theorem Traversal.packet_passed (p : Packet) : (Traversal.passed p).packet = some p := rfl

def rtTableLocal : UInt32 := 255
def rtTableMain : UInt32 := 254
def rtTableDefault : UInt32 := 253

/-- No class uses a table of the system. -/
def SparesSystemTables (classes : List PathClassConfig) : Prop :=
  ∀ cls ∈ classes, cls.routingTable ∉ [rtTableLocal, rtTableMain, rtTableDefault]

instance (classes : List PathClassConfig) : Decidable (SparesSystemTables classes) :=
  inferInstanceAs (Decidable (∀ _ ∈ _, _))

namespace Kernel

/-- The tables that are looked up for a mark. The policy rules have one priority, behind the rule
for `local` and in front of those for `main` and `default`. -/
def lookupTables (k : Kernel) (mark : UInt32) : List UInt32 :=
  rtTableLocal :: consultedTables k mark ++ [rtTableMain, rtTableDefault]

/-- The device of the first default route of a table. -/
def tableDevice (k : Kernel) (table : UInt32) : Option UInt32 := (k.routes table).head?.map (·.dev)

/-- The device of the first default route that is found. -/
def routeDevice (k : Kernel) (mark : UInt32) : Option UInt32 :=
  (k.lookupTables mark).findSome? k.tableDevice

/-- The device of unmarked traffic. -/
def systemDevice (k : Kernel) : Option UInt32 :=
  [rtTableLocal, rtTableMain, rtTableDefault].findSome? k.tableDevice

/-- A packet as it leaves the host, if it does; `names` are the names of the devices. Behind
`mangle` it is routed again, which is the same lookup where its mark is the same; the device that
`OUTPUT` sees stays the first one. -/
def egress (foreign : Foreign) (names : UInt32 → Bytes) (k : Kernel) (p : Packet) :
    Option Packet := do
  let first ← k.routeDevice p.mark
  let q ← (k.mangle.traverseOutput foreign { p with device := names first }).packet
  let last ← k.routeDevice q.mark
  let r ← (k.filter.traverseOutput foreign { q with device := names first }).packet
  return { r with device := names last }

end Kernel

/-- A rule of a strict class keeps the packets of `C` from the device: the device is named by
another class and not by `C`, which is strict, or by another class, which is. -/
def BarredFrom (classes : List PathClassConfig) (C : PathClassConfig) (device : Bytes) : Prop :=
  (C.strictIsolation = true ∧ ∃ B ∈ classes, ∃ iface ∈ B.interfaces,
      iface ∉ C.interfaces ∧ namesDevice iface device) ∨
    ∃ S ∈ classes, S.strictIsolation = true ∧ S ≠ C ∧
      ∃ iface ∈ S.interfaces, namesDevice iface device

instance (classes : List PathClassConfig) (C : PathClassConfig) (device : Bytes) :
    Decidable (BarredFrom classes C device) :=
  inferInstanceAs (Decidable (_ ∨ _))

variable {classes : List PathClassConfig} {k s : Kernel} {C : PathClassConfig}

/-! ## The lookup -/

theorem routeDevice_eq (hlocal : s.routes rtTableLocal = []) (mark : UInt32) :
    s.routeDevice mark =
      ((consultedTables s mark).findSome? s.tableDevice).or s.systemDevice := by
  have hnone : s.tableDevice rtTableLocal = none := by simp [Kernel.tableDevice, hlocal]
  simp [Kernel.routeDevice, Kernel.lookupTables, Kernel.systemDevice, List.findSome?_append, hnone]

theorem systemDevice_congr (h : s.routes = k.routes) : s.systemDevice = k.systemDevice := by
  have htables : s.tableDevice = k.tableDevice := by
    funext table
    rw [Kernel.tableDevice, Kernel.tableDevice, h]
  rw [Kernel.systemDevice, Kernel.systemDevice, htables]

/-- The mark of a class is looked up in its table, and then in those of the system. -/
theorem routeDevice_class (hwf : WellFormed classes) (hlocal : s.routes rtTableLocal = [])
    (hrules : ∀ r, r ∈ s.fwRules ↔ ∃ cls ∈ classes, classRule cls = r) (hC : C ∈ classes) :
    s.routeDevice C.mark = (s.tableDevice C.routingTable).or s.systemDevice := by
  have hown : ∀ table ∈ consultedTables s C.mark, table = C.routingTable := by
    intro table htable
    obtain ⟨r, hr, hmark, rfl⟩ := mem_consultedTables.mp htable
    obtain ⟨cls, hcls, rfl⟩ := (hrules r).mp hr
    rw [hwf.eq_of_mark hcls hC hmark]
    rfl
  have hpos := List.length_pos_of_mem (consultedTables_of_rules hwf hrules hC).1
  rw [routeDevice_eq hlocal, List.eq_replicate_of_mem hown, List.findSome?_replicate_of_pos hpos]

/-- A mark of no class is looked up in the tables of the system. -/
theorem routeDevice_other (hlocal : s.routes rtTableLocal = [])
    (hrules : ∀ r, r ∈ s.fwRules ↔ ∃ cls ∈ classes, classRule cls = r)
    {mark : UInt32} (hmark : ∀ cls ∈ classes, mark ≠ cls.mark) :
    s.routeDevice mark = s.systemDevice := by
  have hnone : consultedTables s mark = [] := by
    rw [List.eq_nil_iff_forall_not_mem]
    intro table htable
    obtain ⟨r, hr, hr', -⟩ := mem_consultedTables.mp htable
    obtain ⟨cls, hcls, rfl⟩ := (hrules r).mp hr
    exact hmark cls hcls hr'.symm
  rw [routeDevice_eq hlocal, hnone]
  rfl

/-! ## The drop rules -/

theorem dropRules_of_not_any (h : ¬ anyIsolation classes = true) : dropRules classes = [] := by
  rw [anyIsolation_iff] at h
  rw [dropRules, List.filter_eq_nil_iff.mpr fun cls hcls hstrict => h ⟨cls, hcls, hstrict⟩]
  rfl

/-- The rules that match a packet of a class are those that bar it from its device. -/
theorem dropRules_match_class (hwf : WellFormed classes) (hC : C ∈ classes) {p : Packet}
    (hmark : p.mark = C.mark) (hdev : IsDeviceName p.device) :
    (∃ e ∈ dropRules classes, e.matchesPacket p = true) ↔ BarredFrom classes C p.device := by
  constructor
  · rintro ⟨e, he, hmatch⟩
    obtain ⟨S, hS, hstrict, ⟨B, hB, iface, hi, hnot, rfl⟩ | ⟨B, hB, hid, iface, hi, rfl⟩⟩ :=
      mem_dropRules.mp he
    · obtain ⟨hfield, hSmark⟩ := matchesPacket_buildDropEntry.mp hmatch
      obtain rfl := hwf.eq_of_mark hC hS (hmark.symm.trans hSmark)
      exact .inl ⟨hstrict, B, hB, iface, hi, hnot, (fieldMatches_iff hdev).mp hfield⟩
    · obtain ⟨hfield, hBmark⟩ := matchesPacket_buildDropEntry.mp hmatch
      obtain rfl := hwf.eq_of_mark hC hB (hmark.symm.trans hBmark)
      exact .inr ⟨S, hS, hstrict, fun h => hid (h ▸ rfl), iface, hi,
        (fieldMatches_iff hdev).mp hfield⟩
  · rintro (⟨hstrict, B, hB, iface, hi, hnot, hname⟩ | ⟨S, hS, hstrict, hne, iface, hi, hname⟩)
    · exact ⟨buildDropEntry iface C.mark,
        mem_dropRules.mpr ⟨C, hC, hstrict, .inl ⟨B, hB, iface, hi, hnot, rfl⟩⟩,
        matchesPacket_buildDropEntry.mpr ⟨(fieldMatches_iff hdev).mpr hname, hmark⟩⟩
    · refine ⟨buildDropEntry iface C.mark, mem_dropRules.mpr ⟨S, hS, hstrict, .inr ⟨C, hC, ?_,
        iface, hi, rfl⟩⟩, matchesPacket_buildDropEntry.mpr
          ⟨(fieldMatches_iff hdev).mpr hname, hmark⟩⟩
      exact fun hid => hne (hwf.eq_of_id hS hC hid.symm)

/-- No rule matches a mark of no class. -/
theorem dropRules_match_other {p : Packet} (hmark : ∀ cls ∈ classes, p.mark ≠ cls.mark) :
    ¬ ∃ e ∈ dropRules classes, e.matchesPacket p = true := by
  rintro ⟨e, he, hmatch⟩
  obtain ⟨S, hS, -, ⟨-, -, iface, -, -, rfl⟩ | ⟨B, hB, -, iface, -, rfl⟩⟩ := mem_dropRules.mp he
  · exact hmark S hS (matchesPacket_buildDropEntry.mp hmatch).2
  · exact hmark B hB (matchesPacket_buildDropEntry.mp hmatch).2

end WifiOffload
