import WifiOffload.Config.Document

/-!
# The integers of a document

`get<int>()` reduces an integer modulo 2^32 before any check sees it: the range check of
`routing_table` is made on the reduced number, and the thresholds are compared only with each
other. An integer that does not fit is refused where its reduced value fails some check, and
otherwise stands in the configuration as another number.
-/

namespace WifiOffload

open ConfigLoader

/-- A threshold of an entry, where it is present as an integer. -/
def Json.threshold? (entry : Json) (key : Bytes) : Option Int :=
  (entry.field? (Bytes.ascii "rssi")).bind (·.integer? key)

/-- The numbers of the class are those of the entry. -/
structure MeansNumbers (entry : Json) (cls : PathClassConfig) : Prop where
  routingTable : entry.integer? (Bytes.ascii "routing_table") = some (cls.routingTable.toNat : Int)
  connectMin : ∀ n, entry.threshold? (Bytes.ascii "connect_min") = some n → cls.rssi.connectMin = n
  warn : ∀ n, entry.threshold? (Bytes.ascii "warn") = some n → cls.rssi.warn = n
  drop : ∀ n, entry.threshold? (Bytes.ascii "drop") = some n → cls.rssi.drop = n

/-- The range of `int`. -/
def FitsInt (n : Int) : Prop := -2 ^ 31 ≤ n ∧ n < 2 ^ 31

/-- The range of a routing table. -/
def FitsTable (n : Int) : Prop := 1 ≤ n ∧ n ≤ 65534

/-- All integers of the entry fit their fields. -/
structure EntryFits (entry : Json) : Prop where
  routingTable : ∀ n, entry.integer? (Bytes.ascii "routing_table") = some n → FitsTable n
  thresholds : ∀ key ∈ [Bytes.ascii "connect_min", Bytes.ascii "warn", Bytes.ascii "drop"],
    ∀ n, entry.threshold? key = some n → FitsInt n

/-- Some integer of the document does not fit its field. -/
def Misfit (root : Json) : Prop :=
  ∃ entries, root.pathClasses = some entries ∧ ∃ entry ∈ entries, ¬ EntryFits entry

/-- The numbers of the classes are those of the document, and a document with an integer that does
not fit is refused with `InvalidValue`. -/
structure NumbersKept (bits : Nat) (root : Json) : Prop where
  kept : ∀ classes, loadRoot bits root = .ok classes →
    ∃ entries, root.pathClasses = some entries ∧ List.Forall₂ MeansNumbers entries classes
  invalidValue : Misfit root → loadRoot bits root = .error (.returned .invalidValue)

variable {bits : Nat} {root entry : Json} {cls : PathClassConfig} {n : Int}

theorem asInt_eq (h : FitsInt n) : asInt n = n := by
  obtain ⟨hlo, hhi⟩ := h
  unfold asInt
  apply Int.bmod_eq_of_le
  · omega
  · omega

theorem FitsTable.fitsInt (h : FitsTable n) : FitsInt n := by
  unfold FitsTable at h
  unfold FitsInt
  omega

/-- What fits is read as it stands. -/
theorem Reads.meansNumbers (h : Reads bits entry cls) (hfits : EntryFits entry) :
    MeansNumbers entry cls := by
  have hthreshold {key : Bytes} {default : Int}
      (hkey : key ∈ [Bytes.ascii "connect_min", Bytes.ascii "warn", Bytes.ascii "drop"])
      {rssi : Json} (hrssi : entry.field? (Bytes.ascii "rssi") = some rssi) {n : Int}
      (hn : entry.threshold? key = some n) :
      ((rssi.integer? key).map asInt).getD default = n := by
    have hfit := hfits.thresholds key hkey n hn
    rw [Json.threshold?, hrssi, Option.bind_some] at hn
    rw [hn, Option.map_some, Option.getD_some, asInt_eq hfit]
  obtain ⟨table, htable, -, -, hcls⟩ := h.routingTable
  have hfit : FitsTable table := hfits.routingTable table htable
  have htableInt : FitsInt table := hfit.fitsInt
  refine ⟨?_, ?_, ?_, ?_⟩
  · obtain ⟨hlo, hhi⟩ := hfit
    have hmod : table.toNat % 2 ^ 32 = table.toNat := Nat.mod_eq_of_lt (by omega)
    rw [hcls, asInt_eq htableInt, UInt32.toNat_ofNat', hmod, htable]
    congr 1
    omega
  all_goals
    intro n hn
    rcases h.rssi with ⟨hnone, -⟩ | ⟨members, hrssi, hcls, -⟩
    · simp [Json.threshold?, hnone] at hn
    · rw [hcls]
      exact hthreshold (by simp) hrssi hn

theorem kept_of_not_misfit (h : ¬ Misfit root) {classes : List PathClassConfig}
    (hload : loadRoot bits root = .ok classes) :
    ∃ entries, root.pathClasses = some entries ∧ List.Forall₂ MeansNumbers entries classes := by
  obtain ⟨entries, hentries, -, hreads, -⟩ := loadRoot_ok.mp hload
  have hfits : ∀ entry ∈ entries, EntryFits entry := by
    intro entry he
    by_contra hmisfit
    exact h ⟨entries, hentries, entry, he, hmisfit⟩
  have hboth := (List.forall₂_and_left entries classes).mpr ⟨hfits, hreads⟩
  exact ⟨entries, hentries, hboth.imp fun _ _ hentry => hentry.2.meansNumbers hentry.1⟩

/-- The numbers of a document are kept exactly when all its integers fit, or when its first fault,
its integers taken modulo 2^32, is a wrong value. -/
theorem numbersKept_iff (bits : Nat) (root : Json) :
    NumbersKept bits root ↔ (Misfit root → ValueAtFault bits root) := by
  constructor
  · intro h hmisfit
    exact loadRoot_error_iff.mp (h.invalidValue hmisfit)
  · intro h
    refine ⟨fun classes hload => ?_, fun hmisfit => loadRoot_error_iff.mpr (h hmisfit)⟩
    refine kept_of_not_misfit (fun hmisfit => ?_) hload
    have herror := loadRoot_error_iff.mpr (h hmisfit)
    rw [hload] at herror
    cases herror

/-- One class with the table 2^32 + 100. -/
def wideTable : Json :=
  document [policyJson "multipath" "0x00100001" "/sys/fs/cgroup/net_cls/multipath" ["eth0.100"]
    true 4294967396 "0x10" false]

/-- It is accepted with the table 100. -/
theorem wide_table_is_cut : ¬ ∀ root : Json, NumbersKept 64 root := by
  intro h
  have hmisfit : Misfit wideTable := by
    refine ⟨_, rfl, _, .head _, fun hfits => ?_⟩
    have hfit := (hfits.routingTable 4294967396 rfl).2
    omega
  have herror := (h wideTable).invalidValue hmisfit
  cases herror

end WifiOffload
