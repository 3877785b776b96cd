import WifiOffload.Config.Loaded
import WifiOffload.Library.Words

/-!
# The lists that a load can return

The checks of the loader say exactly which class lists it can return: a list that passes them,
with thresholds that fit an `int`, is returned for the document that `printed` makes of it. So
nothing that the loader accepts lies outside `WellFormed`, and nothing inside is out of reach.
-/

namespace WifiOffload

open ConfigLoader

/-! ## Integers -/

/-- A value of the type `int`. -/
def IsInt (n : Int) : Prop := -2 ^ 31 ≤ n ∧ n < 2 ^ 31

instance (n : Int) : Decidable (IsInt n) := inferInstanceAs (Decidable (_ ∧ _))

theorem isInt_asInt (n : Int) : IsInt (asInt n) := by
  unfold IsInt asInt
  rw [Int.bmod_eq_emod]
  split <;> omega

theorem asInt_of_isInt {n : Int} (h : IsInt n) : asInt n = n := by
  obtain ⟨hlo, hhi⟩ := h
  unfold asInt
  rw [Int.bmod_eq_emod]
  split <;> omega

/-- The thresholds are values of their type. -/
structure RssiThresholds.Ints (rssi : RssiThresholds) : Prop where
  connectMin : IsInt rssi.connectMin
  warn : IsInt rssi.warn
  drop : IsInt rssi.drop

theorem ints_default : ({} : RssiThresholds).Ints := ⟨by decide, by decide, by decide⟩

/-! ## Printing -/

/-- `0x` and eight digits. -/
def hexLiteral (w : UInt32) : Bytes := Bytes.ascii "0x" ++ Word.hex w

def RssiThresholds.toJson (rssi : RssiThresholds) : Json :=
  .object
    [(Bytes.ascii "connect_min", .integer rssi.connectMin),
     (Bytes.ascii "warn", .integer rssi.warn),
     (Bytes.ascii "drop", .integer rssi.drop)]

/-- The entry of a class with all its members. -/
def PathClassConfig.toJson (cls : PathClassConfig) : Json :=
  .object
    [(Bytes.ascii "id", .string cls.id),
     (Bytes.ascii "classid", .string (hexLiteral cls.classid)),
     (Bytes.ascii "cgroup_path", .string cls.cgroupPath),
     (Bytes.ascii "interfaces", .array (cls.interfaces.map .string)),
     (Bytes.ascii "mptcp_enabled", .boolean cls.mptcpEnabled),
     (Bytes.ascii "routing_table", .integer cls.routingTable.toNat),
     (Bytes.ascii "mark", .string (hexLiteral cls.mark)),
     (Bytes.ascii "strict_isolation", .boolean cls.strictIsolation),
     (Bytes.ascii "rssi", cls.rssi.toJson)]

/-- The document of a class list. -/
def printed (classes : List PathClassConfig) : Json :=
  document (classes.map (·.toJson))

variable {bits : Nat} {cls : PathClassConfig} {classes : List PathClassConfig}

/-- A printed word is read back. -/
theorem stoul_hexLiteral (hbits : 32 ≤ bits) (w : UInt32) :
    Strtoul.stoul bits (hexLiteral w) = .ok w.toNat := by
  obtain ⟨hlen, hvalue⟩ := Word.digits_hexDigits 8 w.toNat
  have hw : w.toNat % 16 ^ 8 = w.toNat := Nat.mod_eq_of_lt w.toNat_lt
  have hpow : 2 ^ 32 ≤ 2 ^ bits := Nat.pow_le_pow_right (by decide) hbits
  have hlt := w.toNat_lt
  have hdigits : (Strtoul.digits 16 (Word.hex w)).isEmpty = false := by
    rw [← Bool.not_eq_true, List.isEmpty_iff_length_eq_zero, Word.hex, hlen, Word.length_hexDigits]
    decide
  have hmagnitude : Strtoul.magnitude (48 :: 120 :: Word.hex w) = some w.toNat := by
    rw [Strtoul.magnitude, hdigits]
    rw [hw] at hvalue
    simpa [Word.hex] using hvalue
  have hsign : Strtoul.sign (48 :: 120 :: Word.hex w) = (false, 48 :: 120 :: Word.hex w) := rfl
  have hspace : (48 :: 120 :: Word.hex w).dropWhile Strtoul.isSpace = 48 :: 120 :: Word.hex w :=
    rfl
  change Strtoul.stoul bits (48 :: 120 :: Word.hex w) = _
  simp only [Strtoul.stoul, hspace, hsign, hmagnitude]
  rw [if_neg (by omega)]
  rfl

theorem readsHex_hexLiteral (hbits : 32 ≤ bits) {entry : Json} {key : Bytes} {w : UInt32}
    (hfield : entry.field? key = some (.string (hexLiteral w))) (hne : w ≠ 0) :
    ReadsHex bits entry key w := by
  have hlt := w.toNat_lt
  refine ⟨_, _, hfield, stoul_hexLiteral hbits w, ?_, (UInt32.ofNat_toNat).symm, hne⟩
  unfold uint32Max
  omega

theorem thresholdsOf_toJson {rssi : RssiThresholds} (h : rssi.Ints) :
    thresholdsOf rssi.toJson = rssi := by
  have hread : thresholdsOf rssi.toJson =
      ⟨asInt rssi.connectMin, asInt rssi.warn, asInt rssi.drop⟩ := rfl
  rw [hread, asInt_of_isInt h.connectMin, asInt_of_isInt h.warn, asInt_of_isInt h.drop]

/-- The entry of a class describes it. -/
theorem reads_toJson (hbits : 32 ≤ bits) (hwf : cls.WellFormed) (hints : cls.rssi.Ints) :
    Reads bits cls.toJson cls where
  id := ⟨rfl, hwf.id_ne⟩
  classid := readsHex_hexLiteral hbits rfl hwf.classid_ne
  cgroupPath := ⟨rfl, hwf.cgroupPath_ne⟩
  interfaces := ⟨rfl, hwf.interfaces_ne, fun h => hwf.iface_ne [] h rfl⟩
  mptcpEnabled := rfl
  routingTable := by
    obtain ⟨hlo, hhi⟩ := hwf.table_bounds
    have hint : asInt cls.routingTable.toNat = cls.routingTable.toNat :=
      asInt_of_isInt ⟨by omega, by omega⟩
    refine ⟨cls.routingTable.toNat, rfl, ?_⟩
    rw [hint]
    exact ⟨by omega, by omega, UInt32.ofNat_toNat.symm⟩
  mark := readsHex_hexLiteral hbits rfl hwf.mark_ne
  strictIsolation := .inr rfl
  rssi := .inr ⟨_, rfl, (thresholdsOf_toJson hints).symm, hwf.drop_lt_warn⟩

/-- A list with distinct keys shares none. -/
theorem WellFormed.not_sharesKey (h : WellFormed classes) : ¬ SharesKey classes := by
  rintro ⟨A, B, hsub, heq | heq | heq | heq⟩
  · exact nodup_map_iff.mp h.ids_nodup A B hsub heq
  · exact nodup_map_iff.mp h.classids_nodup A B hsub heq
  · exact nodup_map_iff.mp h.marks_nodup A B hsub heq
  · exact nodup_map_iff.mp h.tables_nodup A B hsub heq

/-- The document of a list that passes the checks loads to the list. -/
theorem loadRoot_printed (bits : Nat) (classes : List PathClassConfig) (hbits : 32 ≤ bits)
    (hwf : WellFormed classes) (hints : ∀ cls ∈ classes, cls.rssi.Ints) :
    loadRoot bits (printed classes) = .ok classes := by
  have hne : classes.map (·.toJson) ≠ [] := by simpa using hwf.nonempty
  have hparsed : ParsedAs bits (classes.map (·.toJson)) classes := by
    rw [ParsedAs, List.forall₂_map_left_iff, List.forall₂_same]
    exact fun cls hcls => parsePathClass_ok.mpr
      (reads_toJson hbits (hwf.each cls hcls) (hints cls hcls))
  rw [loadRoot_of_parsedAs rfl hne hparsed, validateClasses_ok_iff.mpr hwf.not_sharesKey]
  rfl

theorem loadRoot_printed_pathPolicies :
    loadRoot 32 (printed pathPolicies) = .ok pathPolicies :=
  loadRoot_printed 32 pathPolicies (by decide) pathPolicies_accepted.wellFormed
    (by simp [pathPolicies, policy, ints_default])

/-! ## The image -/

/-- The thresholds of a class that was read are values of their type. -/
theorem Reads.ints {entry : Json} (h : Reads bits entry cls) : cls.rssi.Ints := by
  have hmember (rssi : Json) (key : Bytes) {default : Int} (hdefault : IsInt default) :
      IsInt (((rssi.integer? key).map asInt).getD default) := by
    cases rssi.integer? key with
    | none => exact hdefault
    | some n => exact isInt_asInt n
  rcases h.rssi with ⟨-, heq⟩ | ⟨members, -, heq, -⟩
  · rw [heq]
    exact ints_default
  · rw [heq]
    exact ⟨hmember _ _ ints_default.connectMin, hmember _ _ ints_default.warn,
      hmember _ _ ints_default.drop⟩

/-- The lists that a load can return are those that pass its checks, with thresholds that are
values of their type. -/
theorem accepted_iff (classes : List PathClassConfig) :
    Accepted classes ↔ WellFormed classes ∧ ∀ cls ∈ classes, cls.rssi.Ints := by
  constructor
  · intro hacc
    refine ⟨hacc.wellFormed, fun cls hcls => ?_⟩
    obtain ⟨bits, -, root, hload⟩ := hacc
    obtain ⟨entries, -, -, hparsed⟩ := pathClasses_of_loadRoot hload
    obtain ⟨entry, -, hentry⟩ := mem_of_mapM_ok (mapM_ok_iff.mpr hparsed) cls hcls
    exact (parsePathClass_ok.mp hentry).ints
  · rintro ⟨hwf, hints⟩
    exact ⟨64, .inr rfl, printed classes, loadRoot_printed 64 classes (by decide) hwf hints⟩

end WifiOffload
