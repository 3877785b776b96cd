import WifiOffload.Config.Exceptions
import WifiOffload.Config.Loaded

/-!
# What a document has to say

A load succeeds where the entries describe classes which share no key. It fails with
`InvalidValue` exactly where the first fault, in the order in which the loader looks for faults, is
a wrong value and not a member that is missing.
-/

namespace WifiOffload

open ConfigLoader Load

/-! ## Members -/

/-- The members of an entry, in the order in which they are looked at. -/
inductive Member where
  | id | classid | cgroupPath | interfaces | mptcpEnabled | routingTable | mark | strictIsolation
  | rssi
  deriving DecidableEq, Repr

namespace Member

def all : List Member :=
  [id, classid, cgroupPath, interfaces, mptcpEnabled, routingTable, mark, strictIsolation, rssi]

/-- The member has a value that a class can have, integers taken modulo 2^32. -/
def Readable (bits : Nat) (entry : Json) : Member → Prop
  | id => ∃ s, entry.field? (Bytes.ascii "id") = some (.string s) ∧ s ≠ []
  | classid => ∃ n, ReadsHex bits entry (Bytes.ascii "classid") n
  | cgroupPath => ∃ s, entry.field? (Bytes.ascii "cgroup_path") = some (.string s) ∧ s ≠ []
  | interfaces => ∃ ifaces, entry.field? (Bytes.ascii "interfaces") =
      some (.array (ifaces.map .string)) ∧ ifaces ≠ [] ∧ [] ∉ ifaces
  | mptcpEnabled => ∃ b, entry.field? (Bytes.ascii "mptcp_enabled") = some (.boolean b)
  | routingTable => ∃ n, entry.integer? (Bytes.ascii "routing_table") = some n ∧
      1 ≤ asInt n ∧ asInt n ≤ 65534
  | mark => ∃ n, ReadsHex bits entry (Bytes.ascii "mark") n
  | strictIsolation => entry.field? (Bytes.ascii "strict_isolation") = none ∨
      ∃ b, entry.field? (Bytes.ascii "strict_isolation") = some (.boolean b)
  | rssi => entry.field? (Bytes.ascii "rssi") = none ∨
      ∃ members, entry.field? (Bytes.ascii "rssi") = some (.object members) ∧
        (thresholdsOf (.object members)).drop < (thresholdsOf (.object members)).warn

/-- The member is there where it is required, and of its type; a hex member may be of any type. -/
def Present (entry : Json) : Member → Prop
  | id => ∃ s, entry.field? (Bytes.ascii "id") = some (.string s)
  | classid => ∃ v, entry.field? (Bytes.ascii "classid") = some v
  | cgroupPath => ∃ s, entry.field? (Bytes.ascii "cgroup_path") = some (.string s)
  | interfaces => ∃ items, entry.field? (Bytes.ascii "interfaces") = some (.array items)
  | mptcpEnabled => ∃ b, entry.field? (Bytes.ascii "mptcp_enabled") = some (.boolean b)
  | routingTable => ∃ n, entry.field? (Bytes.ascii "routing_table") = some (.integer n)
  | mark => ∃ v, entry.field? (Bytes.ascii "mark") = some v
  | strictIsolation | rssi => True

end Member

/-- The first member that is not readable is there: it has a wrong value. -/
def WrongValueFirst (bits : Nat) (entry : Json) : Prop :=
  FirstIsBad (Member.Readable bits entry)
    (fun m => m.Present entry ∧ ¬ m.Readable bits entry) Member.all

/-- The first entry that describes no class has a wrong value first, or all entries describe
classes and two of these share a key. -/
def ValueAtFault (bits : Nat) (root : Json) : Prop :=
  ∃ entries, root.pathClasses = some entries ∧
    (FirstIsBad (fun entry => ∃ cls, Reads bits entry cls) (WrongValueFirst bits) entries ∨
      ∃ classes, List.Forall₂ (Reads bits) entries classes ∧ SharesKey classes)

namespace ConfigLoader

variable {bits : Nat} {root entry : Json} {cls : PathClassConfig}

theorem parsedAs_iff {entries : List Json} {classes : List PathClassConfig} :
    ParsedAs bits entries classes ↔ List.Forall₂ (Reads bits) entries classes := by
  simp only [ParsedAs, parsePathClass_ok]

theorem loadRoot_ok {classes : List PathClassConfig} :
    loadRoot bits root = .ok classes ↔ ∃ entries, root.pathClasses = some entries ∧
      entries ≠ [] ∧ List.Forall₂ (Reads bits) entries classes ∧ ¬ SharesKey classes := by
  constructor
  · intro h
    obtain ⟨entries, hentries, hne, hparsed⟩ := pathClasses_of_loadRoot h
    rw [loadRoot_of_parsedAs hentries hne hparsed, load_bind_ok] at h
    obtain ⟨u, hvalid, -⟩ := h
    exact ⟨entries, hentries, hne, parsedAs_iff.mp hparsed, validateClasses_ok_iff.mp hvalid⟩
  · rintro ⟨entries, hentries, hne, hreads, hshares⟩
    rw [loadRoot_of_parsedAs hentries hne (parsedAs_iff.mpr hreads),
      validateClasses_ok_iff.mpr hshares]
    rfl

/-! ## The error of a load -/

/-- The load can fail with `InvalidValue` only. -/
def RefusesValues {α : Type} (x : Load α) : Prop := ∀ e, x = .error e → e = .returned .invalidValue

namespace RefusesValues

variable {α β : Type} {x : Load α} {f : α → Load β}

theorem ok (a : α) : RefusesValues (.ok a : Load α) := FailsOnly.ok a

theorem invalidValue : RefusesValues (unexpected .invalidValue : Load α) := FailsOnly.error rfl

theorem bind (hx : RefusesValues x) (hf : ∀ a, RefusesValues (f a)) : RefusesValues (x >>= f) :=
  FailsOnly.bind hx hf

theorem require (ok : Bool) : RefusesValues (Load.require ok .invalidValue) := by
  cases ok with
  | true => exact .ok ()
  | false => exact .invalidValue

/-- A value of the tested type is read, and any other is refused. -/
theorem typed {isType : Json → Bool} {get : Json → Except JsonException α} {v : Json}
    (hget : isType v = true → ∃ a, get v = .ok a) {g : α → Load β} (hg : ∀ a, RefusesValues (g a)) :
    RefusesValues (do Load.require (isType v) .invalidValue; let a ← access (get v); g a) := by
  cases htype : isType v with
  | true =>
    obtain ⟨a, ha⟩ := hget htype
    rw [ha]
    exact hg a
  | false => exact .invalidValue

theorem mapM {f : α → Load β} {xs : List α} (hf : ∀ a ∈ xs, RefusesValues (f a)) :
    RefusesValues (xs.mapM f) := FailsOnly.mapM hf

end RefusesValues

section

variable {j v : Json} {key : Bytes}

/-- A member that is there is read. -/
theorem field_eq {α : Type} {e : ConfigError} {f : Json → Load α} (h : j.field? key = some v) :
    (do require (j.contains key) e; let v ← access (j.member key); f v) = f v := by
  rw [Json.contains_eq, h, Json.member_of_field? h]
  rfl

theorem requiredString_refuses {s : Bytes} (h : j.field? key = some (.string s)) :
    RefusesValues (requiredString j key) := by
  rw [requiredString, field_eq h]
  exact (RefusesValues.require _).bind fun _ => .ok s

theorem parseHexField_refuses {bits : Nat} (h : j.field? key = some v) :
    RefusesValues (parseHexField bits j key) := by
  rw [parseHexField, field_eq h]
  refine .typed Json.getString_of_isString fun s => ?_
  split
  · exact (RefusesValues.require _).bind fun _ => .ok _
  · exact .invalidValue

theorem requiredHex_refuses {bits : Nat} (h : j.field? key = some v) :
    RefusesValues (requiredHex bits j key) :=
  (parseHexField_refuses h).bind fun n => (RefusesValues.require _).bind fun _ => .ok n

theorem requiredInterfaces_refuses {items : List Json} (h : j.field? key = some (.array items)) :
    RefusesValues (requiredInterfaces j key) := by
  rw [requiredInterfaces, field_eq h]
  refine (RefusesValues.require _).bind fun _ => RefusesValues.mapM fun item _ => ?_
  exact .typed Json.getString_of_isString fun s => (RefusesValues.require _).bind fun _ => .ok s

theorem requiredTable_refuses {n : Int} (h : j.field? key = some (.integer n)) :
    RefusesValues (requiredTable j key) := by
  rw [requiredTable, field_eq h]
  exact (RefusesValues.require _).bind fun _ => .ok _

theorem optionalBool_refuses : RefusesValues (optionalBool j key) := by
  rw [optionalBool, optional_eq]
  cases j.field? key with
  | none => exact .ok false
  | some v =>
    have hread : access v.getBool = (access v.getBool >>= fun b => .ok b) := (bind_pure _).symm
    change RefusesValues (do require v.isBoolean .invalidValue; access v.getBool)
    rw [hread]
    exact .typed Json.getBool_of_isBoolean fun b => .ok b

theorem optionalRssi_refuses : RefusesValues (optionalRssi j key) := by
  rw [optionalRssi, optional_eq]
  cases j.field? key with
  | none => exact .ok ({} : RssiThresholds)
  | some v =>
    simp only [parseRssiThresholds_eq]
    exact (RefusesValues.require _).bind fun _ => (RefusesValues.require _).bind fun _ => .ok _

end

/-! ### Every check has its condition -/

/-- A check succeeds where the member is readable, and refuses the value of a member that is there
with `InvalidValue`. -/
structure Checks {α : Type} (x : Load α) (present readable : Prop) : Prop where
  ok_iff : (∃ a, x = .ok a) ↔ readable
  refuses : present → RefusesValues x
  missing : ¬ present → x ≠ .error (.returned .invalidValue)

namespace Checks

variable {α β : Type} {x : Load α} {present readable rest : Prop}

theorem error_iff (h : Checks x present readable) :
    x = .error (.returned .invalidValue) ↔ present ∧ ¬ readable := by
  constructor
  · intro herror
    refine ⟨by_contra fun hmissing => h.missing hmissing herror, fun hreadable => ?_⟩
    obtain ⟨a, ha⟩ := h.ok_iff.mpr hreadable
    rw [herror] at ha
    cases ha
  · rintro ⟨hpresent, hreadable⟩
    cases hx : x with
    | ok a => exact absurd (h.ok_iff.mp ⟨a, hx⟩) hreadable
    | error e => rw [h.refuses hpresent e hx]

/-- A check, and what is looked at behind it. -/
theorem bind_error_iff {f : α → Load β} (h : Checks x present readable)
    (hf : ∀ a, f a = .error (.returned .invalidValue) ↔ rest) :
    (x >>= f) = .error (.returned .invalidValue) ↔
      present ∧ ¬ readable ∨ readable ∧ rest := by
  have hbind : (x >>= f) = .error (.returned .invalidValue) ↔
      x = .error (.returned .invalidValue) ∨
        ∃ a, x = .ok a ∧ f a = .error (.returned .invalidValue) := bind_eq_error_iff
  rw [hbind, h.error_iff, ← h.ok_iff]
  simp only [hf, exists_and_right]

end Checks

section

variable {j : Json} {key : Bytes}

/-- A required member that is missing, or has another type than the one tested for. -/
theorem missing_of_type {α : Type} {isType : Json → Bool} {f : Json → Load α}
    (h : ∀ v, j.field? key = some v → isType v = false) :
    (do require (j.contains key) .missingField
        let v ← access (j.member key)
        require (isType v) .missingField
        f v) ≠ .error (.returned .invalidValue) := by
  cases hfield : j.field? key with
  | none => simp [Json.contains_eq, hfield, require, unexpected, bind, Except.bind]
  | some v =>
    rw [field_eq hfield, h v hfield]
    simp [require, unexpected, bind, Except.bind]

theorem checks_requiredString : Checks (requiredString j key)
    (∃ s, j.field? key = some (.string s)) (∃ s, j.field? key = some (.string s) ∧ s ≠ []) where
  ok_iff := by simp only [requiredString_ok]
  refuses := by
    rintro ⟨s, hs⟩
    exact requiredString_refuses hs
  missing h := by
    have htype (v : Json) (hv : j.field? key = some v) : v.isString = false := by
      cases v with
      | string s => exact absurd ⟨s, hv⟩ h
      | null | boolean | integer | float | array | object => rfl
    exact missing_of_type htype

theorem checks_requiredHex {bits : Nat} : Checks (requiredHex bits j key)
    (∃ v, j.field? key = some v) (∃ n, ReadsHex bits j key n) where
  ok_iff := by simp only [requiredHex_ok]
  refuses := by
    rintro ⟨v, hv⟩
    exact requiredHex_refuses hv
  missing h := by
    have hnone : j.field? key = none :=
      Option.eq_none_iff_forall_ne_some.mpr fun v hv => h ⟨v, hv⟩
    simp [requiredHex, parseHexField, Json.contains_eq, hnone, require, unexpected, bind,
      Except.bind]

theorem checks_requiredInterfaces : Checks (requiredInterfaces j key)
    (∃ items, j.field? key = some (.array items))
    (∃ ifaces, j.field? key = some (.array (ifaces.map .string)) ∧ ifaces ≠ [] ∧ [] ∉ ifaces) where
  ok_iff := by simp only [requiredInterfaces_reads]
  refuses := by
    rintro ⟨items, hitems⟩
    exact requiredInterfaces_refuses hitems
  missing h := by
    have htype (v : Json) (hv : j.field? key = some v) : v.isArray = false := by
      cases v with
      | array items => exact absurd ⟨items, hv⟩ h
      | null | boolean | integer | float | string | object => rfl
    exact missing_of_type htype

theorem checks_requiredBool : Checks (requiredBool j key)
    (∃ b, j.field? key = some (.boolean b)) (∃ b, j.field? key = some (.boolean b)) where
  ok_iff := by simp only [requiredBool_ok]
  refuses := by
    rintro ⟨b, hb⟩
    rw [requiredBool_ok.mpr hb]
    exact .ok b
  missing h := by
    have htype (v : Json) (hv : j.field? key = some v) : v.isBoolean = false := by
      cases v with
      | boolean b => exact absurd ⟨b, hv⟩ h
      | null | string | integer | float | array | object => rfl
    exact missing_of_type htype

theorem checks_requiredTable : Checks (requiredTable j key)
    (∃ n, j.field? key = some (.integer n))
    (∃ n, j.integer? key = some n ∧ 1 ≤ asInt n ∧ asInt n ≤ 65534) where
  ok_iff := by
    simp only [requiredTable_ok]
    constructor
    · rintro ⟨table, n, hn, hlo, hhi, -⟩
      exact ⟨n, hn, hlo, hhi⟩
    · rintro ⟨n, hn, hlo, hhi⟩
      exact ⟨_, n, hn, hlo, hhi, rfl⟩
  refuses := by
    rintro ⟨n, hn⟩
    exact requiredTable_refuses hn
  missing h := by
    have htype (v : Json) (hv : j.field? key = some v) : v.isNumberInteger = false := by
      cases v with
      | integer n => exact absurd ⟨n, hv⟩ h
      | null | boolean | string | float | array | object => rfl
    exact missing_of_type htype

theorem checks_optionalBool : Checks (optionalBool j key) True
    (j.field? key = none ∨ ∃ b, j.field? key = some (.boolean b)) where
  ok_iff := by
    simp only [optionalBool_ok]
    constructor
    · rintro ⟨b, ⟨hnone, -⟩ | hb⟩
      · exact .inl hnone
      · exact .inr ⟨b, hb⟩
    · rintro (hnone | ⟨b, hb⟩)
      · exact ⟨false, .inl ⟨hnone, rfl⟩⟩
      · exact ⟨b, .inr hb⟩
  refuses _ := optionalBool_refuses
  missing h := absurd trivial h

theorem checks_optionalRssi : Checks (optionalRssi j key) True
    (j.field? key = none ∨ ∃ members, j.field? key = some (.object members) ∧
      (thresholdsOf (.object members)).drop < (thresholdsOf (.object members)).warn) where
  ok_iff := by
    simp only [optionalRssi_ok]
    constructor
    · rintro ⟨rssi, ⟨hnone, -⟩ | ⟨members, hmembers, rfl, hlt⟩⟩
      · exact .inl hnone
      · exact .inr ⟨members, hmembers, hlt⟩
    · rintro (hnone | ⟨members, hmembers, hlt⟩)
      · exact ⟨{}, .inl ⟨hnone, rfl⟩⟩
      · exact ⟨_, .inr ⟨members, hmembers, rfl, hlt⟩⟩
  refuses _ := optionalRssi_refuses
  missing h := absurd trivial h

end

/-- An entry is refused for a value exactly where its first fault is one. -/
theorem parsePathClass_error_iff :
    parsePathClass bits entry = .error (.returned .invalidValue) ↔ WrongValueFirst bits entry := by
  rw [parsePathClass, WrongValueFirst, Member.all]
  simp only [firstIsBad_cons, not_firstIsBad_nil, and_false, or_false]
  exact checks_requiredString.bind_error_iff fun _ => checks_requiredHex.bind_error_iff fun _ =>
    checks_requiredString.bind_error_iff fun _ => checks_requiredInterfaces.bind_error_iff fun _ =>
    checks_requiredBool.bind_error_iff fun _ => checks_requiredTable.bind_error_iff fun _ =>
    checks_requiredHex.bind_error_iff fun _ => checks_optionalBool.bind_error_iff fun _ =>
    (@Checks.bind_error_iff _ _ _ _ _ False _ checks_optionalRssi fun _ => by
      simp [pure, Except.pure]).trans (by simp [Member.Present, Member.Readable])

theorem validateClasses_error_iff {classes : List PathClassConfig} :
    validateClasses classes = .error (.returned .invalidValue) ↔ SharesKey classes := by
  constructor
  · intro h
    by_contra hshares
    rw [validateClasses_ok_iff.mpr hshares] at h
    cases h
  · exact validateClasses_of_sharesKey

theorem loadRoot_of_no_pathClasses (h : root.pathClasses = none) :
    loadRoot bits root = unexpected .invalidSchema := by
  cases hcontains : root.contains (Bytes.ascii "path_classes") with
  | false => simp [loadRoot, hcontains, require, unexpected, bind, Except.bind]
  | true =>
    obtain ⟨v, hv⟩ := Json.member_of_contains hcontains
    have htype : v.isArray = false := by
      cases v with
      | array entries =>
        rw [pathClasses_eq_some_iff.mpr ⟨hcontains, hv⟩] at h
        cases h
      | null | boolean | integer | float | string | object => rfl
    simp [loadRoot, hcontains, hv, htype, require, access, unexpected, bind, Except.bind]

theorem loadRoot_of_no_entries (h : root.pathClasses = some []) :
    loadRoot bits root = unexpected .invalidSchema := by
  obtain ⟨hcontains, hmember⟩ := pathClasses_eq_some_iff.mp h
  simp [loadRoot, hcontains, hmember, Json.isArray, Json.items, require, access, unexpected, bind,
    Except.bind]

/-- A document is refused with `InvalidValue` exactly where its first fault is a value. -/
theorem loadRoot_error_iff :
    loadRoot bits root = .error (.returned .invalidValue) ↔ ValueAtFault bits root := by
  cases hentries : root.pathClasses with
  | none => simp [loadRoot_of_no_pathClasses hentries, ValueAtFault, hentries, unexpected]
  | some entries =>
    by_cases hne : entries = []
    · subst hne
      have hshares : ¬ SharesKey [] := by
        rintro ⟨A, B, hsub, -⟩
        simp at hsub
      simp [loadRoot_of_no_entries hentries, ValueAtFault, hentries, unexpected, hshares]
    · have hparsed : (∃ classes, entries.mapM (parsePathClass bits) = .ok classes ∧
          validateClasses classes = .error (.returned .invalidValue)) ↔
          ∃ classes, List.Forall₂ (Reads bits) entries classes ∧ SharesKey classes := by
        simp only [mapM_ok_iff, parsePathClass_ok, validateClasses_error_iff]
      have hfirst : entries.mapM (parsePathClass bits) = .error (.returned .invalidValue) ↔
          FirstIsBad (fun entry => ∃ cls, Reads bits entry cls) (WrongValueFirst bits) entries := by
        rw [mapM_eq_error_iff]
        exact FirstIsBad.congr (fun _ => by simp only [parsePathClass_ok])
          fun _ => parsePathClass_error_iff
      rw [loadRoot_of_pathClasses hentries hne]
      simp only [ValueAtFault, hentries, Option.some.injEq, exists_eq_left', ← hparsed, ← hfirst]
      refine bind_eq_error_iff.trans (or_congr_right (exists_congr fun classes =>
        and_congr_right fun _ => bind_eq_error_iff.trans ?_))
      simp [pure, Except.pure]

end ConfigLoader
end WifiOffload
