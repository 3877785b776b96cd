import WifiOffload.Config.Entries
import WifiOffload.Library.Failures

/-!
# Exceptions of a load

From the parsed document on, every access of the loader stands behind the test of the type that it
needs, and both exceptions of `std::stoul` are caught: whatever the document, a load ends with a
class list or with a `ConfigError`. The call of the parser is the one place that can throw, as only
`parse_error` is caught around it.
-/

namespace WifiOffload

open ConfigLoader Load

/-- The computation ends with a value or with a returned error. -/
def NeverThrows {α : Type} (x : Load α) : Prop := FailsOnly (fun e => ∃ c, e = .returned c) x

/-- The parser throws nothing but `parse_error` on the content of the file. -/
def ThrowsParseErrorOnly (parse : Bytes → Except JsonException Json) (content : Option Bytes) :
    Prop := ∀ text, content = some text → ∀ e, parse text = .error e → e = .parseError

/-! ## Tested accesses -/

namespace Json

variable {j v : Json} {key : Bytes}

theorem member_of_contains (h : j.contains key = true) : ∃ v, j.member key = .ok v := by
  rw [contains_eq, Option.isSome_iff_exists] at h
  obtain ⟨v, hv⟩ := h
  exact ⟨v, member_of_field? hv⟩

theorem getString_of_isString (h : v.isString = true) : ∃ s, v.getString = .ok s := by
  cases v with
  | string s => exact ⟨s, rfl⟩
  | null | boolean | integer | float | array | object => cases h

theorem getBool_of_isBoolean (h : v.isBoolean = true) : ∃ b, v.getBool = .ok b := by
  cases v with
  | boolean b => exact ⟨b, rfl⟩
  | null | string | integer | float | array | object => cases h

theorem getInt_of_isNumberInteger (h : v.isNumberInteger = true) : ∃ n, v.getInt = .ok n := by
  cases v with
  | integer n => exact ⟨n.bmod (2 ^ 32), rfl⟩
  | null | boolean | string | float | array | object => cases h

end Json

namespace NeverThrows

variable {α β : Type} {x : Load α} {f : α → Load β}

theorem ok (a : α) : NeverThrows (.ok a : Load α) := FailsOnly.ok a

theorem unexpected (e : ConfigError) : NeverThrows (Load.unexpected e : Load α) :=
  FailsOnly.error ⟨e, rfl⟩

theorem bind (hx : NeverThrows x) (hf : ∀ a, NeverThrows (f a)) : NeverThrows (x >>= f) :=
  FailsOnly.bind hx hf

/-- What follows a test may rely on it. -/
theorem guard {ok : Bool} {e : ConfigError} (h : ok = true → NeverThrows x) :
    NeverThrows (do require ok e; x) := by
  cases ok with
  | true => exact h rfl
  | false => exact unexpected e

/-- An access that succeeds. -/
theorem read {get : Except JsonException α} (hget : ∃ a, get = .ok a)
    (hf : ∀ a, NeverThrows (f a)) : NeverThrows (access get >>= f) := by
  obtain ⟨a, rfl⟩ := hget
  exact hf a

theorem access {get : Except JsonException α} (hget : ∃ a, get = .ok a) :
    NeverThrows (Load.access get) := by
  obtain ⟨a, rfl⟩ := hget
  exact ok a

end NeverThrows

/-! ## The loader -/

namespace ConfigLoader

variable {bits : Nat} {j : Json} {key : Bytes}

theorem requiredString_neverThrows : NeverThrows (requiredString j key) :=
  .guard fun hkey => .read (Json.member_of_contains hkey) fun _ =>
    .guard fun hstring => .read (Json.getString_of_isString hstring) fun s => .guard fun _ => .ok s

theorem parseHexField_neverThrows : NeverThrows (parseHexField bits j key) := by
  refine .guard fun hkey => .read (Json.member_of_contains hkey) fun v => ?_
  refine .guard fun hstring => .read (Json.getString_of_isString hstring) fun s => ?_
  split
  · exact .guard fun _ => .ok _
  · exact .unexpected .invalidValue

theorem requiredHex_neverThrows : NeverThrows (requiredHex bits j key) :=
  parseHexField_neverThrows.bind fun n => .guard fun _ => .ok n

theorem parseInterface_neverThrows (iface : Json) : NeverThrows (parseInterface iface) :=
  .guard fun hstring => .read (Json.getString_of_isString hstring) fun s => .guard fun _ => .ok s

theorem requiredInterfaces_neverThrows : NeverThrows (requiredInterfaces j key) :=
  .guard fun hkey => .read (Json.member_of_contains hkey) fun _ => .guard fun _ => .guard fun _ =>
    FailsOnly.mapM fun iface _ => parseInterface_neverThrows iface

theorem requiredBool_neverThrows : NeverThrows (requiredBool j key) :=
  .guard fun hkey => .read (Json.member_of_contains hkey) fun _ =>
    .guard fun hbool => .access (Json.getBool_of_isBoolean hbool)

theorem requiredTable_neverThrows : NeverThrows (requiredTable j key) :=
  .guard fun hkey => .read (Json.member_of_contains hkey) fun _ =>
    .guard fun hint => .read (Json.getInt_of_isNumberInteger hint) fun _ => .guard fun _ => .ok _

theorem optionalBool_neverThrows : NeverThrows (optionalBool j key) := by
  unfold optionalBool
  split
  · next hkey =>
    exact .read (Json.member_of_contains hkey) fun _ =>
      .guard fun hbool => .access (Json.getBool_of_isBoolean hbool)
  · exact .ok false

theorem thresholdOr_neverThrows {default : Int} : NeverThrows (thresholdOr j key default) := by
  unfold thresholdOr
  split
  · next hkey =>
    refine .read (Json.member_of_contains hkey) fun v => ?_
    split
    · next hint => exact .access (Json.getInt_of_isNumberInteger hint)
    · exact .ok default
  · exact .ok default

theorem parseRssiThresholds_neverThrows : NeverThrows (parseRssiThresholds j) :=
  thresholdOr_neverThrows.bind fun _ => thresholdOr_neverThrows.bind fun _ =>
    thresholdOr_neverThrows.bind fun _ => .ok _

theorem optionalRssi_neverThrows : NeverThrows (optionalRssi j key) := by
  unfold optionalRssi
  split
  · next hkey =>
    exact .read (Json.member_of_contains hkey) fun _ => .guard fun _ =>
      parseRssiThresholds_neverThrows.bind fun rssi => .guard fun _ => .ok rssi
  · exact .ok ({} : RssiThresholds)

theorem parsePathClass_neverThrows (entry : Json) : NeverThrows (parsePathClass bits entry) :=
  requiredString_neverThrows.bind fun _ => requiredHex_neverThrows.bind fun _ =>
    requiredString_neverThrows.bind fun _ => requiredInterfaces_neverThrows.bind fun _ =>
    requiredBool_neverThrows.bind fun _ => requiredTable_neverThrows.bind fun _ =>
    requiredHex_neverThrows.bind fun _ => optionalBool_neverThrows.bind fun _ =>
    optionalRssi_neverThrows.bind fun _ => .ok _

theorem validateFrom_neverThrows (seen : Seen) (classes : List PathClassConfig) :
    NeverThrows (validateFrom seen classes) := by
  induction classes generalizing seen with
  | nil => exact .ok ()
  | cons cls classes ih =>
    exact .guard fun _ => .guard fun _ => .guard fun _ => .guard fun _ => ih (seen.insert cls)

/-- Every document loads or is refused with a `ConfigError`. -/
theorem loadRoot_neverThrows (bits : Nat) (root : Json) : NeverThrows (loadRoot bits root) :=
  .guard fun hkey => .read (Json.member_of_contains hkey) fun _ => .guard fun _ => .guard fun _ =>
    NeverThrows.bind (FailsOnly.mapM fun entry _ => parsePathClass_neverThrows entry) fun classes =>
      (validateFrom_neverThrows {} classes).bind fun _ => .ok classes

/-- What the parser throws on the content, other than `parse_error`, escapes from the load. -/
theorem loadFromFile_thrown_iff {bits : Nat} {parse : Bytes → Except JsonException Json}
    {content : Option Bytes} {e : JsonException} :
    loadFromFile bits parse content = .error (.thrown e) ↔
      e ≠ .parseError ∧ ∃ text, content = some text ∧ parse text = .error e := by
  cases content with
  | none => simp [loadFromFile, unexpected]
  | some text =>
    cases hparse : parse text with
    | ok root =>
      have hroot : loadRoot bits root ≠ .error (.thrown e) := by
        intro hthrown
        obtain ⟨c, hc⟩ := loadRoot_neverThrows bits root _ hthrown
        cases hc
      simp [loadFromFile, hparse, hroot]
    | error e' => cases e' <;> cases e <;> simp [loadFromFile, hparse, unexpected]

/-- A load throws nothing exactly where the parser throws nothing but `parse_error`. -/
theorem loadFromFile_neverThrows_iff {bits : Nat} {parse : Bytes → Except JsonException Json}
    {content : Option Bytes} :
    NeverThrows (loadFromFile bits parse content) ↔ ThrowsParseErrorOnly parse content := by
  constructor
  · intro hnever text hcontent e hparse
    by_contra hother
    obtain ⟨c, hc⟩ := hnever _ (loadFromFile_thrown_iff.mpr ⟨hother, text, hcontent, hparse⟩)
    cases hc
  · intro honly failure hfailure
    cases failure with
    | returned c => exact ⟨c, rfl⟩
    | thrown e =>
      obtain ⟨hother, text, hcontent, hparse⟩ := loadFromFile_thrown_iff.mp hfailure
      exact absurd (honly text hcontent e hparse) hother

end ConfigLoader
end WifiOffload
