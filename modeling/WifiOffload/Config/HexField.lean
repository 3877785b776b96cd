import WifiOffload.Config.Document
import WifiOffload.Library.Literals

/-!
# Hex members

`parseHexField` gives the text of a member to `std::stoul` and does not ask how much of it was
read: white space, a sign and whatever stands behind the literal are accepted with it, and a
negative number stands for its value modulo the word size.
-/

namespace WifiOffload

open Strtoul

namespace ConfigLoader

/-- A member with this text is read as the literal that the text is, and otherwise refused. -/
structure AcceptsLiterals (bits : Nat) (j : Json) (key s : Bytes) : Prop where
  value : ∀ v : UInt32, parseHexField bits j key = .ok v ↔ Literal s v.toNat
  other : (∀ v : UInt32, ¬ Literal s v.toNat) →
    parseHexField bits j key = .error (.returned .invalidValue)

/-- A text that is read as a number in range has nothing around its literal. -/
def NothingAround (bits : Nat) (s : Bytes) : Prop :=
  ∀ spaces sgn lit rest n, Reading s spaces sgn lit rest n → n < 2 ^ bits →
    signedValue bits sgn n < 2 ^ 32 → spaces = [] ∧ sgn = [] ∧ rest = []

variable {bits : Nat} {j : Json} {key s : Bytes}

/-- What a member with this text is read as. -/
theorem parseHexField_ok_iff (hfield : j.field? key = some (.string s)) {v : UInt32} :
    parseHexField bits j key = .ok v ↔ ∃ spaces sgn lit rest n,
      Reading s spaces sgn lit rest n ∧ n < 2 ^ bits ∧ v.toNat = signedValue bits sgn n := by
  have hmax : uint32Max = 2 ^ 32 - 1 := rfl
  rw [parseHexField_ok]
  constructor
  · rintro ⟨t, m, htext, hstoul, hle, rfl⟩
    obtain rfl : t = s := by simpa [hfield] using htext.symm
    obtain ⟨spaces, sgn, lit, rest, n, hreading, hlt, rfl⟩ := stoul_ok_iff.mp hstoul
    refine ⟨spaces, sgn, lit, rest, n, hreading, hlt, ?_⟩
    rw [UInt32.toNat_ofNat', Nat.mod_eq_of_lt (by omega)]
  · rintro ⟨spaces, sgn, lit, rest, n, hreading, hlt, hv⟩
    have hrange := v.toNat_lt
    refine ⟨s, v.toNat, hfield, ?_, by omega, UInt32.ofNat_toNat.symm⟩
    exact stoul_ok_iff.mpr ⟨spaces, sgn, lit, rest, n, hreading, hlt, hv⟩

/-- A hex member is accepted exactly as a literal is where every text that is read in range has
nothing around its literal. -/
theorem acceptsLiterals_iff (bits : Nat) (hbits : bits = 32 ∨ bits = 64) (j : Json)
    (key s : Bytes) (hfield : j.field? key = some (.string s)) :
    AcceptsLiterals bits j key s ↔ NothingAround bits s := by
  have hword : 2 ^ 32 ≤ 2 ^ bits := Nat.pow_le_pow_right (by omega) (by omega)
  constructor
  · intro h spaces sgn lit rest n hreading hlt hrange
    have hvalue : (UInt32.ofNat (signedValue bits sgn n)).toNat = signedValue bits sgn n := by
      rw [UInt32.toNat_ofNat', Nat.mod_eq_of_lt hrange]
    have hparse := (parseHexField_ok_iff hfield).mpr
      ⟨spaces, sgn, lit, rest, n, hreading, hlt, hvalue⟩
    exact hreading.whole_of_literal ((h.value _).mp hparse)
  · intro h
    have hvalue : ∀ v : UInt32, parseHexField bits j key = .ok v ↔ Literal s v.toNat := by
      intro v
      have hrange := v.toNat_lt
      rw [parseHexField_ok_iff hfield]
      constructor
      · rintro ⟨spaces, sgn, lit, rest, n, hreading, hlt, hv⟩
        obtain ⟨rfl, rfl, rfl⟩ := h spaces sgn lit rest n hreading hlt (by omega)
        have hsplit : s = lit := by simpa using hreading.split
        rw [hv, hsplit, signedValue, if_neg (by simp)]
        exact hreading.literal
      · intro hlit
        exact ⟨[], [], s, [], v.toNat, .of_literal hlit, by omega, rfl⟩
    refine ⟨hvalue, fun hnone => ?_⟩
    cases hparse : parseHexField bits j key with
    | ok v => exact absurd ((hvalue v).mp hparse) (hnone v)
    | error e => rw [parseHexField_refuses hfield e hparse]

/-- A document entry with this text as its mark. -/
def markEntry (text : String) : Json :=
  .object [(Bytes.ascii "mark", .string (Bytes.ascii text))]

theorem shipped_mark_accepted :
    AcceptsLiterals 32 (markEntry "0x10") (Bytes.ascii "mark") (Bytes.ascii "0x10") := by
  have hlit : Literal (Bytes.ascii "0x10") 16 :=
    .hexadecimal 120 (Bytes.ascii "10") (.inl rfl) rfl (by decide)
  refine (acceptsLiterals_iff 32 (.inl rfl) _ _ _ rfl).mpr ?_
  intro spaces sgn lit rest n hreading _ _
  exact hreading.whole_of_literal hlit

/-- On a target with 32-bit words `-1` is accepted as `0xffffffff`. -/
theorem negative_mark_accepted :
    ¬ ∀ (bits : Nat) (j : Json) (key s : Bytes), (bits = 32 ∨ bits = 64) →
        j.field? key = some (.string s) → AcceptsLiterals bits j key s := by
  intro h
  have haccepts := h 32 (markEntry "-1") (Bytes.ascii "mark") (Bytes.ascii "-1") (.inl rfl) rfl
  have hlit := (haccepts.value 0xFFFFFFFF).mp (by decide +kernel)
  obtain ⟨b, bs, d, hs, hd⟩ := hlit.exists_digit
  obtain rfl : (45 : UInt8) = b := congrArg (fun l : Bytes => l.headD 0) hs
  cases hd

end ConfigLoader
end WifiOffload
