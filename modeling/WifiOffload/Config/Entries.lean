import WifiOffload.Config.ConfigLoader

/-!
# What an entry has to say

`Reads` says which class an entry of the document describes, on the entry itself and with its
integers taken modulo 2^32. Every member check of the loader is one equivalence about the member,
and an entry is parsed to a class exactly when it describes that class.
-/

namespace WifiOffload

namespace Json

/-- The member of an object. -/
def field? (j : Json) (key : Bytes) : Option Json :=
  match j with
  | .object members => members.lookup key
  | _ => none

/-- The member of an object, where it is an integer. -/
def integer? (j : Json) (key : Bytes) : Option Int :=
  match j.field? key with
  | some (.integer n) => some n
  | _ => none

theorem contains_eq {j : Json} {key : Bytes} : j.contains key = (j.field? key).isSome := by
  cases j <;> rfl

theorem member_of_field? {j v : Json} {key : Bytes} (h : j.field? key = some v) :
    j.member key = .ok v := by
  cases j with
  | object members =>
    have hlookup : members.lookup key = some v := h
    simp [member, hlookup]
  | null | boolean | integer | float | string | array => cases h

end Json

open ConfigLoader Load

/-! ## Successful loads -/

section Success

variable {α β : Type}

theorem load_bind_ok {x : Load α} {f : α → Load β} {b : β} :
    (x >>= f) = .ok b ↔ ∃ a, x = .ok a ∧ f a = .ok b := by
  cases x with
  | ok a => exact ⟨fun h => ⟨a, rfl, h⟩, fun ⟨_, ha, hf⟩ => by cases ha; exact hf⟩
  | error e =>
    constructor
    · intro h
      nomatch h
    · rintro ⟨a, ha, -⟩
      nomatch ha

theorem require_ok {ok : Bool} {e : ConfigError} {u : Unit} :
    require ok e = .ok u ↔ ok = true := by
  cases ok <;> simp [require, unexpected]

theorem load_pure_ok {a b : α} : (pure a : Load α) = .ok b ↔ a = b := by
  simp [pure, Except.pure]

/-- A successful `mapM` is successful element by element. -/
theorem mapM_ok_iff {f : α → Load β} {xs : List α} {ys : List β} :
    xs.mapM f = .ok ys ↔ List.Forall₂ (fun x y => f x = .ok y) xs ys := by
  induction xs generalizing ys with
  | nil =>
    rw [List.mapM_nil, load_pure_ok, List.forall₂_nil_left_iff]
    exact eq_comm
  | cons x xs ih =>
    simp only [List.mapM_cons, load_bind_ok, load_pure_ok, ih, List.forall₂_cons_left_iff]
    constructor
    · rintro ⟨y, hy, zs, hzs, rfl⟩
      exact ⟨y, zs, hy, hzs, rfl⟩
    · rintro ⟨y, zs, hy, hzs, rfl⟩
      exact ⟨y, hy, zs, hzs, rfl⟩

/-- The elements of a successful `mapM` are results of the function. -/
theorem mem_of_mapM_ok {f : α → Load β} {xs : List α} {ys : List β}
    (h : xs.mapM f = .ok ys) : ∀ y ∈ ys, ∃ x ∈ xs, f x = .ok y := by
  induction mapM_ok_iff.mp h with
  | nil => simp
  | @cons x y xs ys hxy hrest ih =>
    intro z hz
    rcases List.mem_cons.mp hz with rfl | hz
    · exact ⟨x, by simp, hxy⟩
    · obtain ⟨w, hw, hfw⟩ := ih (mapM_ok_iff.mpr hrest) z hz
      exact ⟨w, by simp [hw], hfw⟩

theorem length_of_mapM_ok {f : α → Load β} {xs : List α} {ys : List β}
    (h : xs.mapM f = .ok ys) : ys.length = xs.length := (mapM_ok_iff.mp h).length_eq.symm

end Success

/-- An integer as `get<int>()` returns it. -/
def asInt (n : Int) : Int := n.bmod (2 ^ 32)

/-- The thresholds of an `rssi` object; what is not an integer keeps its default. -/
def thresholdsOf (rssi : Json) : RssiThresholds :=
  let defaults : RssiThresholds := {}
  { connectMin := ((rssi.integer? (Bytes.ascii "connect_min")).map asInt).getD defaults.connectMin
    warn := ((rssi.integer? (Bytes.ascii "warn")).map asInt).getD defaults.warn
    drop := ((rssi.integer? (Bytes.ascii "drop")).map asInt).getD defaults.drop }

/-- The text of a hex member, and that it stands for a number other than 0. -/
def ReadsHex (bits : Nat) (entry : Json) (key : Bytes) (n : UInt32) : Prop :=
  ∃ s v, entry.field? key = some (.string s) ∧ Strtoul.stoul bits s = .ok v ∧ v ≤ uint32Max ∧
    n = UInt32.ofNat v ∧ n ≠ 0

/-- The class that an entry describes. -/
structure Reads (bits : Nat) (entry : Json) (cls : PathClassConfig) : Prop where
  id : entry.field? (Bytes.ascii "id") = some (.string cls.id) ∧ cls.id ≠ []
  classid : ReadsHex bits entry (Bytes.ascii "classid") cls.classid
  cgroupPath : entry.field? (Bytes.ascii "cgroup_path") = some (.string cls.cgroupPath) ∧
    cls.cgroupPath ≠ []
  interfaces : entry.field? (Bytes.ascii "interfaces") =
    some (.array (cls.interfaces.map .string)) ∧ cls.interfaces ≠ [] ∧ [] ∉ cls.interfaces
  mptcpEnabled : entry.field? (Bytes.ascii "mptcp_enabled") = some (.boolean cls.mptcpEnabled)
  routingTable : ∃ n, entry.integer? (Bytes.ascii "routing_table") = some n ∧
    1 ≤ asInt n ∧ asInt n ≤ 65534 ∧ cls.routingTable = UInt32.ofNat (asInt n).toNat
  mark : ReadsHex bits entry (Bytes.ascii "mark") cls.mark
  strictIsolation : (entry.field? (Bytes.ascii "strict_isolation") = none ∧
      cls.strictIsolation = false) ∨
    entry.field? (Bytes.ascii "strict_isolation") = some (.boolean cls.strictIsolation)
  rssi : (entry.field? (Bytes.ascii "rssi") = none ∧ cls.rssi = {}) ∨
    ∃ members, entry.field? (Bytes.ascii "rssi") = some (.object members) ∧
      cls.rssi = thresholdsOf (.object members) ∧ cls.rssi.drop < cls.rssi.warn

namespace ConfigLoader

/-! ## Members -/

section Members

variable {j : Json} {key : Bytes}

theorem access_ok {α : Type} {x : Except JsonException α} {a : α} :
    access x = .ok a ↔ x = .ok a := by
  cases x <;> simp [access]

/-- A required member, read where it is there. -/
theorem field_ok {α : Type} {e : ConfigError} {f : Json → Load α} {a : α} :
    (do require (j.contains key) e; let v ← access (j.member key); f v) = .ok a ↔
      ∃ v, j.field? key = some v ∧ f v = .ok a := by
  rw [Json.contains_eq]
  cases hfield : j.field? key with
  | none => simp [require, unexpected, bind, Except.bind]
  | some v =>
    rw [Json.member_of_field? hfield]
    simp [require, access, bind, Except.bind]

/-- A value that is tested for its type before it is read. -/
theorem typed_ok {α β : Type} {isType : Json → Bool} {get : Json → Except JsonException α}
    {mk : α → Json} (htype : ∀ v a, (isType v = true ∧ get v = .ok a) ↔ v = mk a)
    {e : ConfigError} {f : α → Load β} {v : Json} {b : β} :
    (do require (isType v) e; let a ← access (get v); f a) = .ok b ↔
      ∃ a, v = mk a ∧ f a = .ok b := by
  simp only [load_bind_ok, require_ok, access_ok, exists_and_left, exists_const]
  constructor
  · rintro ⟨hisType, a, hget, hf⟩
    exact ⟨a, (htype v a).mp ⟨hisType, hget⟩, hf⟩
  · rintro ⟨a, hv, hf⟩
    obtain ⟨hisType, hget⟩ := (htype v a).mpr hv
    exact ⟨hisType, a, hget, hf⟩

theorem isString_getString (v : Json) (s : Bytes) :
    (v.isString = true ∧ v.getString = .ok s) ↔ v = .string s := by
  cases v <;> simp [Json.isString, Json.getString]

theorem isBoolean_getBool (v : Json) (b : Bool) :
    (v.isBoolean = true ∧ v.getBool = .ok b) ↔ v = .boolean b := by
  cases v <;> simp [Json.isBoolean, Json.getBool]

theorem typedBool_ok {e : ConfigError} {v : Json} {b : Bool} :
    (do require v.isBoolean e; access v.getBool) = .ok b ↔ v = .boolean b := by
  simp only [load_bind_ok, require_ok, access_ok, exists_const]
  exact isBoolean_getBool v b

theorem requiredString_ok {s : Bytes} :
    requiredString j key = .ok s ↔ j.field? key = some (.string s) ∧ s ≠ [] := by
  rw [requiredString, field_ok]
  simp only [typed_ok isString_getString, load_bind_ok, require_ok, load_pure_ok,
    decide_eq_true_eq, exists_and_left, exists_const]
  grind

theorem parseHexField_ok {bits : Nat} {n : UInt32} :
    parseHexField bits j key = .ok n ↔ ∃ s v, j.field? key = some (.string s) ∧
      Strtoul.stoul bits s = .ok v ∧ v ≤ uint32Max ∧ n = UInt32.ofNat v := by
  rw [parseHexField, field_ok]
  simp only [typed_ok isString_getString]
  constructor
  · rintro ⟨_, hfield, s, rfl, hread⟩
    split at hread
    · next v hv =>
      simp only [load_bind_ok, require_ok, load_pure_ok, decide_eq_true_eq, exists_and_left,
        exists_const] at hread
      exact ⟨s, v, hfield, hv, hread.1, hread.2.symm⟩
    · cases hread
  · rintro ⟨s, v, hfield, hv, hle, rfl⟩
    refine ⟨_, hfield, s, rfl, ?_⟩
    simp only [hv, load_bind_ok, require_ok, load_pure_ok, decide_eq_true_eq, exists_and_left,
      exists_const]
    exact ⟨hle, trivial⟩

theorem requiredHex_ok {bits : Nat} {n : UInt32} :
    requiredHex bits j key = .ok n ↔ ReadsHex bits j key n := by
  simp only [requiredHex, load_bind_ok, require_ok, load_pure_ok, parseHexField_ok,
    decide_eq_true_eq, exists_and_left, exists_const, ReadsHex]
  grind

theorem parseInterface_ok {v : Json} {iface : Bytes} :
    parseInterface v = .ok iface ↔ v = .string iface ∧ iface ≠ [] := by
  simp only [parseInterface, typed_ok isString_getString, load_bind_ok, require_ok, load_pure_ok,
    decide_eq_true_eq, exists_and_left, exists_const]
  grind

theorem parsedInterfaces_iff {items : List Json} {ifaces : List Bytes} :
    items.mapM parseInterface = .ok ifaces ↔ items = ifaces.map .string ∧ [] ∉ ifaces := by
  rw [mapM_ok_iff]
  simp only [parseInterface_ok]
  constructor
  · intro h
    induction h with
    | nil => simp
    | cons hitem _ ih => simp [hitem.1, ih.1, ih.2, Ne.symm hitem.2]
  · rintro ⟨rfl, hne⟩
    induction ifaces with
    | nil => exact .nil
    | cons iface ifaces ih =>
      rw [List.mem_cons, not_or] at hne
      exact .cons ⟨rfl, Ne.symm hne.1⟩ (ih hne.2)

theorem requiredInterfaces_reads {ifaces : List Bytes} :
    requiredInterfaces j key = .ok ifaces ↔
      j.field? key = some (.array (ifaces.map .string)) ∧ ifaces ≠ [] ∧ [] ∉ ifaces := by
  rw [requiredInterfaces, field_ok]
  simp only [load_bind_ok, require_ok, parsedInterfaces_iff, decide_eq_true_eq, exists_and_left,
    exists_const]
  constructor
  · rintro ⟨v, hfield, hisArray, hne, hitems, hifaces⟩
    cases v with
    | array items =>
      obtain rfl : items = ifaces.map .string := hitems
      exact ⟨hfield, fun h => hne (by simp [Json.items, h]), hifaces⟩
    | null | boolean | integer | float | string | object => cases hisArray
  · rintro ⟨hfield, hne, hifaces⟩
    exact ⟨_, hfield, rfl, by simpa [Json.items] using hne, rfl, hifaces⟩

theorem requiredBool_ok {b : Bool} :
    requiredBool j key = .ok b ↔ j.field? key = some (.boolean b) := by
  rw [requiredBool, field_ok]
  simp [typedBool_ok]

theorem integer?_eq_some {n : Int} :
    j.integer? key = some n ↔ j.field? key = some (.integer n) := by
  unfold Json.integer?
  split <;> simp_all

theorem isNumberInteger_getInt {v : Json} {m : Int} :
    (v.isNumberInteger = true ∧ v.getInt = .ok m) ↔ ∃ n, v = .integer n ∧ asInt n = m := by
  cases v <;> simp [Json.isNumberInteger, Json.getInt, asInt]

theorem requiredTable_ok {table : UInt32} :
    requiredTable j key = .ok table ↔ ∃ n, j.integer? key = some n ∧
      1 ≤ asInt n ∧ asInt n ≤ 65534 ∧ table = UInt32.ofNat (asInt n).toNat := by
  rw [requiredTable, field_ok]
  simp only [integer?_eq_some, load_bind_ok, require_ok, load_pure_ok, access_ok,
    decide_eq_true_eq, exists_and_left, exists_const]
  constructor
  · rintro ⟨v, hfield, htype, m, hget, hrange, rfl⟩
    obtain ⟨n, rfl, rfl⟩ := isNumberInteger_getInt.mp ⟨htype, hget⟩
    exact ⟨n, hfield, hrange.1, hrange.2, rfl⟩
  · rintro ⟨n, hfield, hlo, hhi, rfl⟩
    exact ⟨_, hfield, rfl, asInt n, rfl, ⟨hlo, hhi⟩, rfl⟩

/-- An optional member: absent, or read from the value that is there. -/
theorem optional_eq {α : Type} {f : Json → Load α} {absent : α} :
    (if j.contains key then do let v ← access (j.member key); f v else return absent) =
      match j.field? key with
      | none => pure absent
      | some v => f v := by
  rw [Json.contains_eq]
  cases hfield : j.field? key with
  | none => simp
  | some v =>
    rw [Json.member_of_field? hfield]
    rfl

theorem optionalBool_ok {b : Bool} :
    optionalBool j key = .ok b ↔
      (j.field? key = none ∧ b = false) ∨ j.field? key = some (.boolean b) := by
  rw [optionalBool, optional_eq]
  cases j.field? key with
  | none =>
    simp only [load_pure_ok, reduceCtorEq, or_false, true_and]
    exact eq_comm
  | some v => simp [typedBool_ok]

theorem thresholdOr_eq {default : Int} :
    thresholdOr j key default = .ok (((j.integer? key).map asInt).getD default) := by
  rw [thresholdOr, optional_eq, Json.integer?]
  cases j.field? key with
  | none => rfl
  | some v => cases v <;> rfl

theorem parseRssiThresholds_eq : parseRssiThresholds j = .ok (thresholdsOf j) := by
  simp only [parseRssiThresholds, thresholdOr_eq]
  rfl

theorem optionalRssi_ok {rssi : RssiThresholds} :
    optionalRssi j key = .ok rssi ↔ (j.field? key = none ∧ rssi = {}) ∨
      ∃ members, j.field? key = some (.object members) ∧ rssi = thresholdsOf (.object members) ∧
        rssi.drop < rssi.warn := by
  rw [optionalRssi, optional_eq]
  cases j.field? key with
  | none =>
    simp only [load_pure_ok, reduceCtorEq, false_and, exists_false, or_false, true_and]
    exact eq_comm
  | some v =>
    simp only [parseRssiThresholds_eq, load_bind_ok, require_ok, load_pure_ok, decide_eq_true_eq,
      exists_and_left, exists_const]
    cases v with
    | object members =>
      simp only [Json.isObject, true_and]
      grind
    | null | boolean | integer | float | string | array => simp [Json.isObject]

end Members

/-- An entry is parsed to the class that it describes. -/
theorem parsePathClass_ok {bits : Nat} {entry : Json} {cls : PathClassConfig} :
    parsePathClass bits entry = .ok cls ↔ Reads bits entry cls := by
  simp only [parsePathClass, load_bind_ok, load_pure_ok, requiredString_ok, requiredHex_ok,
    requiredInterfaces_reads, requiredBool_ok, requiredTable_ok, optionalBool_ok, optionalRssi_ok]
  constructor
  · rintro ⟨id, hid, classid, hclassid, path, hpath, ifaces, hifaces, mptcp, hmptcp, table, htable,
      mark, hmark, strict, hstrict, rssi, hrssi, rfl⟩
    exact ⟨hid, hclassid, hpath, hifaces, hmptcp, htable, hmark, hstrict, hrssi⟩
  · rintro ⟨hid, hclassid, hpath, hifaces, hmptcp, htable, hmark, hstrict, hrssi⟩
    exact ⟨_, hid, _, hclassid, _, hpath, _, hifaces, _, hmptcp, _, htable, _, hmark, _, hstrict,
      _, hrssi, rfl⟩

end ConfigLoader
end WifiOffload
