import WifiOffload.Config.Entries

/-!
# Accepted configurations

`Accepted` is what the daemon starts from: a class list that `loadFromFile` returned. Every
accepted list is `WellFormed`: each class passes the field checks of `parsePathClass`, and ids,
classids, marks and tables are pairwise distinct over the list.
-/

namespace WifiOffload

open ConfigLoader Load

/-- The list is what some document loads to, on a target with 32- or 64-bit `unsigned long`. -/
def Accepted (classes : List PathClassConfig) : Prop :=
  ∃ bits, (bits = 32 ∨ bits = 64) ∧ ∃ root, loadRoot bits root = .ok classes

/-- The field checks of `parsePathClass`. -/
structure PathClassConfig.WellFormed (cls : PathClassConfig) : Prop where
  id_ne : cls.id ≠ []
  classid_ne : cls.classid ≠ 0
  cgroupPath_ne : cls.cgroupPath ≠ []
  interfaces_ne : cls.interfaces ≠ []
  iface_ne : ∀ iface ∈ cls.interfaces, iface ≠ []
  table_bounds : 1 ≤ cls.routingTable.toNat ∧ cls.routingTable.toNat ≤ 65534
  mark_ne : cls.mark ≠ 0
  drop_lt_warn : cls.rssi.drop < cls.rssi.warn

/-- What the loader checks across classes. -/
structure WellFormed (classes : List PathClassConfig) : Prop where
  nonempty : classes ≠ []
  each : ∀ cls ∈ classes, cls.WellFormed
  ids_nodup : (classes.map (·.id)).Nodup
  classids_nodup : (classes.map (·.classid)).Nodup
  marks_nodup : (classes.map (·.mark)).Nodup
  tables_nodup : (classes.map (·.routingTable)).Nodup

/-! ## Field checks -/

theorem ReadsHex.ne_zero {bits : Nat} {entry : Json} {key : Bytes} {n : UInt32}
    (h : ReadsHex bits entry key n) : n ≠ 0 := by
  obtain ⟨-, -, -, -, -, -, hne⟩ := h
  exact hne

/-- The class that an entry describes passes all field checks. -/
theorem Reads.wellFormed {bits : Nat} {entry : Json} {cls : PathClassConfig}
    (h : Reads bits entry cls) : cls.WellFormed where
  id_ne := h.id.2
  classid_ne := h.classid.ne_zero
  cgroupPath_ne := h.cgroupPath.2
  interfaces_ne := h.interfaces.2.1
  iface_ne := by
    rintro iface hi rfl
    exact h.interfaces.2.2 hi
  table_bounds := by
    obtain ⟨n, -, hlo, hhi, htable⟩ := h.routingTable
    have hmod : (asInt n).toNat % 2 ^ 32 = (asInt n).toNat := Nat.mod_eq_of_lt (by omega)
    rw [htable, UInt32.toNat_ofNat', hmod]
    omega
  mark_ne := h.mark.ne_zero
  drop_lt_warn := by
    rcases h.rssi with ⟨-, hdefault⟩ | ⟨members, -, -, hlt⟩
    · rw [hdefault]
      decide
    · exact hlt

/-! ## Checks across classes -/

/-- A validation succeeds exactly when no key repeats one seen before or another of the list. -/
theorem validateFrom_ok {seen : Seen} {classes : List PathClassConfig} {u : Unit} :
    validateFrom seen classes = .ok u ↔
      ((classes.map (·.id)).Nodup ∧ ∀ cls ∈ classes, cls.id ∉ seen.ids) ∧
      ((classes.map (·.classid)).Nodup ∧ ∀ cls ∈ classes, cls.classid ∉ seen.classids) ∧
      ((classes.map (·.mark)).Nodup ∧ ∀ cls ∈ classes, cls.mark ∉ seen.marks) ∧
      ((classes.map (·.routingTable)).Nodup ∧
        ∀ cls ∈ classes, cls.routingTable ∉ seen.tables) := by
  induction classes generalizing seen with
  | nil => simp [validateFrom, load_pure_ok]
  | cons cls classes ih =>
    simp only [validateFrom, load_bind_ok, require_ok, ih, exists_and_left, exists_const,
      Seen.insert, decide_eq_true_eq, List.map_cons, List.nodup_cons, List.mem_map, List.mem_cons,
      not_or]
    grind

theorem loadRoot_wellFormed {bits : Nat} {root : Json} {classes : List PathClassConfig}
    (h : loadRoot bits root = .ok classes) : WellFormed classes := by
  simp only [loadRoot, load_bind_ok, load_pure_ok, require_ok, decide_eq_true_eq,
    exists_and_left, exists_const] at h
  obtain ⟨-, arr, -, -, hne, cs, hmap, u, hvalid, rfl⟩ := h
  obtain ⟨⟨hids, -⟩, ⟨hclassids, -⟩, ⟨hmarks, -⟩, ⟨htables, -⟩⟩ := validateFrom_ok.mp hvalid
  refine ⟨?_, ?_, hids, hclassids, hmarks, htables⟩
  · have hlen := length_of_mapM_ok hmap
    rintro rfl
    exact hne (List.length_eq_zero_iff.mp hlen.symm)
  · intro cls hcls
    obtain ⟨item, -, hitem⟩ := mem_of_mapM_ok hmap cls hcls
    exact (parsePathClass_ok.mp hitem).wellFormed

theorem Accepted.wellFormed {classes : List PathClassConfig} (h : Accepted classes) :
    WellFormed classes := by
  obtain ⟨bits, -, root, hroot⟩ := h
  exact loadRoot_wellFormed hroot

namespace WellFormed

variable {classes : List PathClassConfig} {A B : PathClassConfig}

theorem eq_of_id (h : WellFormed classes) (hA : A ∈ classes) (hB : B ∈ classes)
    (heq : A.id = B.id) : A = B := List.inj_on_of_nodup_map h.ids_nodup hA hB heq

theorem eq_of_mark (h : WellFormed classes) (hA : A ∈ classes) (hB : B ∈ classes)
    (heq : A.mark = B.mark) : A = B := List.inj_on_of_nodup_map h.marks_nodup hA hB heq

theorem eq_of_routingTable (h : WellFormed classes) (hA : A ∈ classes) (hB : B ∈ classes)
    (heq : A.routingTable = B.routingTable) : A = B :=
  List.inj_on_of_nodup_map h.tables_nodup hA hB heq

end WellFormed

/-! ## The shipped configuration -/

/-- One class of a document in the shape of `config/path-policies.json`. -/
def policyJson (id classid cgroupPath : String) (interfaces : List String) (mptcp : Bool)
    (table : Int) (mark : String) (strict : Bool) : Json :=
  .object
    [(Bytes.ascii "id", .string (Bytes.ascii id)),
     (Bytes.ascii "classid", .string (Bytes.ascii classid)),
     (Bytes.ascii "cgroup_path", .string (Bytes.ascii cgroupPath)),
     (Bytes.ascii "interfaces", .array (interfaces.map fun i => .string (Bytes.ascii i))),
     (Bytes.ascii "mptcp_enabled", .boolean mptcp),
     (Bytes.ascii "routing_table", .integer table),
     (Bytes.ascii "mark", .string (Bytes.ascii mark)),
     (Bytes.ascii "strict_isolation", .boolean strict)]

/-- A class with default thresholds. -/
def policy (id : String) (classid : UInt32) (cgroupPath : String) (interfaces : List String)
    (mptcpEnabled : Bool) (routingTable mark : UInt32) (strictIsolation : Bool) :
    PathClassConfig :=
  { id := Bytes.ascii id, classid, cgroupPath := Bytes.ascii cgroupPath,
    interfaces := interfaces.map Bytes.ascii, mptcpEnabled, routingTable, mark, strictIsolation,
    rssi := {} }

/-- The classes of `config/path-policies.json`. -/
def pathPolicies : List PathClassConfig :=
  [policy "multipath" 0x00100001 "/sys/fs/cgroup/net_cls/multipath" ["eth0.100", "eth0.200"]
      true 100 0x10 false,
   policy "lte_b2c" 0x00100002 "/sys/fs/cgroup/net_cls/lte_b2c" ["eth0.200"]
      false 200 0x20 false,
   policy "lte_b2b" 0x00100003 "/sys/fs/cgroup/net_cls/lte_b2b" ["eth0.300"]
      false 300 0x30 true]

/-- The document with these classes. -/
def document (classes : List Json) : Json :=
  .object [(Bytes.ascii "path_classes", .array classes)]

def pathPoliciesJson : List Json :=
  [policyJson "multipath" "0x00100001" "/sys/fs/cgroup/net_cls/multipath"
      ["eth0.100", "eth0.200"] true 100 "0x10" false,
   policyJson "lte_b2c" "0x00100002" "/sys/fs/cgroup/net_cls/lte_b2c" ["eth0.200"]
      false 200 "0x20" false,
   policyJson "lte_b2b" "0x00100003" "/sys/fs/cgroup/net_cls/lte_b2b" ["eth0.300"]
      false 300 "0x30" true]

theorem pathPolicies_accepted : Accepted pathPolicies :=
  ⟨64, .inr rfl, document pathPoliciesJson, rfl⟩

/-- The shipped configuration without its last class, the strict one. -/
theorem pathPolicies_take_accepted : Accepted (pathPolicies.take 2) :=
  ⟨64, .inr rfl, document (pathPoliciesJson.take 2), rfl⟩

/-- Two classes of one directory. -/
def sharedDirPolicies : List PathClassConfig :=
  [policy "multipath" 0x00100001 "/sys/fs/cgroup/net_cls/offload" ["eth0.100"] true 100 0x10 false,
   policy "lte_b2c" 0x00100002 "/sys/fs/cgroup/net_cls/offload" ["eth0.200"] false 200 0x20 false]

theorem sharedDirPolicies_accepted : Accepted sharedDirPolicies :=
  ⟨64, .inr rfl, document
    [policyJson "multipath" "0x00100001" "/sys/fs/cgroup/net_cls/offload" ["eth0.100"] true 100
        "0x10" false,
     policyJson "lte_b2c" "0x00100002" "/sys/fs/cgroup/net_cls/offload" ["eth0.200"] false 200
        "0x20" false], rfl⟩

end WifiOffload
