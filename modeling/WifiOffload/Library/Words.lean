import WifiOffload.Library.Strtoul

/-!
# Words of 32 bits in memory and in print

The bytes of a word in the memory of a little-endian host, `htonl` there, the eight hexadecimal
digits of a word, and the decimal digits of a number.
-/

namespace Word

/-- The bytes of a word in memory. -/
def memory (w : UInt32) : CharArray 4 := ⟨Bytes.le 4 w.toNat, Bytes.length_le 4 _⟩

/-- The word that bytes in memory are. -/
def ofMemory (a : CharArray 4) : UInt32 := UInt32.ofNat (Bytes.ofLE a.val)

/-- `htonl`: the most significant byte comes first. -/
def htonl (w : UInt32) : UInt32 := ofMemory (memory w).reverse

theorem toNat_ofMemory (a : CharArray 4) : (ofMemory a).toNat = Bytes.ofLE a.val := by
  have hlt := Bytes.ofLE_lt a.val
  rw [a.2] at hlt
  rw [ofMemory, UInt32.toNat_ofNat']
  exact Nat.mod_eq_of_lt hlt

@[simp] theorem memory_ofMemory (a : CharArray 4) : memory (ofMemory a) = a := by
  apply Subtype.ext
  calc Bytes.le 4 (ofMemory a).toNat = Bytes.le a.val.length (Bytes.ofLE a.val) := by
        rw [toNat_ofMemory, a.2]
    _ = a.val := Bytes.le_ofLE a.val

@[simp] theorem ofMemory_memory (w : UInt32) : ofMemory (memory w) = w := by
  have hw := w.toNat_lt
  apply UInt32.toNat_inj.mp
  rw [toNat_ofMemory]
  exact (Bytes.ofLE_le 4 w.toNat).trans (Nat.mod_eq_of_lt hw)

theorem memory_injective : Function.Injective memory :=
  Function.LeftInverse.injective ofMemory_memory

theorem ofMemory_injective : Function.Injective ofMemory :=
  Function.LeftInverse.injective memory_ofMemory

@[simp] theorem memory_htonl (w : UInt32) : memory (htonl w) = (memory w).reverse :=
  memory_ofMemory _

/-! ## Eight hexadecimal digits -/

def hexDigit (d : Nat) : UInt8 := if d < 10 then UInt8.ofNat (48 + d) else UInt8.ofNat (55 + d)

/-- The lowest `k` hexadecimal digits of a number. -/
def hexDigits : Nat → Nat → Bytes
  | 0, _ => []
  | k + 1, n => hexDigits k (n / 16) ++ [hexDigit (n % 16)]

/-- `%08X`. -/
def hex (w : UInt32) : Bytes := hexDigits 8 w.toNat

open Strtoul (digits ofDigits)

theorem digits_hexDigit {d : Nat} (h : d < 16) : digits 16 [hexDigit d] = [d] := by
  decide +revert

/-- Every byte is a digit, and together they stand for the number as far as it fits. -/
theorem digits_hexDigits (k n : Nat) :
    (digits 16 (hexDigits k n)).length = (hexDigits k n).length ∧
      ofDigits 16 (digits 16 (hexDigits k n)) = n % 16 ^ k := by
  induction k generalizing n with
  | zero => simp [hexDigits, digits, ofDigits, Nat.mod_one]
  | succ k ih =>
    obtain ⟨hlen, hvalue⟩ := ih (n / 16)
    have hlast : n % 16 < 16 := Nat.mod_lt n (by decide)
    rw [hexDigits, Strtoul.digits_append hlen, digits_hexDigit hlast, Strtoul.ofDigits_concat,
      hvalue]
    refine ⟨by simp [hlen], ?_⟩
    calc 16 * (n / 16 % 16 ^ k) + n % 16 = n % (16 * 16 ^ k) := by rw [Nat.mod_mul, Nat.add_comm]
      _ = n % 16 ^ (k + 1) := by rw [Nat.pow_succ']

@[simp] theorem length_hexDigits (k n : Nat) : (hexDigits k n).length = k := by
  induction k generalizing n with
  | zero => rfl
  | succ k ih => simp [hexDigits, ih]

theorem hex_ne_nil (w : UInt32) : hex w ≠ [] := by
  apply List.ne_nil_of_length_pos
  simp [hex]

theorem isSpace_of_mem_hex {w : UInt32} {b : UInt8} (h : b ∈ hex w) :
    Strtoul.isSpace b = false := by
  have hdigit : ∀ d < 16, Strtoul.isSpace (hexDigit d) = false := by decide
  have hall (k n : Nat) : ∀ b ∈ hexDigits k n, Strtoul.isSpace b = false := by
    induction k generalizing n with
    | zero => simp [hexDigits]
    | succ k ih =>
      intro b hb
      rw [hexDigits, List.mem_append, List.mem_singleton] at hb
      obtain hb | rfl := hb
      · exact ih (n / 16) b hb
      · exact hdigit _ (Nat.mod_lt n (by decide))
  exact hall 8 w.toNat b h

/-- A printed word is read back. -/
theorem stoulHex_hex {bits : Nat} (hbits : 32 ≤ bits) (w : UInt32) :
    Strtoul.stoulHex bits (hex w) = .ok w.toNat := by
  obtain ⟨hlen, hvalue⟩ := digits_hexDigits 8 w.toNat
  have hw := w.toNat_lt
  have hfits : w.toNat % 16 ^ 8 = w.toNat := Nat.mod_eq_of_lt hw
  have hpow : 2 ^ 32 ≤ 2 ^ bits := Nat.pow_le_pow_right (by decide) hbits
  have hlt : ofDigits 16 (digits 16 (hexDigits 8 w.toNat)) < 2 ^ bits := by omega
  have hread := Strtoul.stoulHex_of_digits hlen (hex_ne_nil w) hlt
  rwa [hvalue, hfits] at hread

theorem hex_injective : Function.Injective hex := by
  intro v w h
  have hv := stoulHex_hex (le_refl 32) v
  rw [h, stoulHex_hex (le_refl 32) w, Except.ok.injEq] at hv
  exact (UInt32.toNat_inj.mp hv).symm

example : hex (htonl 0x0101A8C0) = Bytes.ascii "C0A80101" := by decide

/-! ## Decimal digits -/

/-- `%d` of a number that is not negative. -/
def decimal (n : Nat) : Bytes :=
  if n = 0 then [48] else (Nat.digits 10 n).reverse.map fun d => UInt8.ofNat (48 + d)

/-- The number can be read back from its digits. -/
theorem ofDigits_decimal (n : Nat) :
    Nat.ofDigits 10 ((decimal n).reverse.map fun b => b.toNat - 48) = n := by
  unfold decimal
  split
  · next hzero =>
    rw [hzero]
    rfl
  · have hdigits : (Nat.digits 10 n).map (fun d => (UInt8.ofNat (48 + d)).toNat - 48) =
        Nat.digits 10 n := by
      refine (List.map_congr_left fun d hd => ?_).trans (List.map_id _)
      have hlt : d < 10 := Nat.digits_lt_base (by decide) hd
      rw [UInt8.toNat_ofNat', id_eq]
      omega
    rw [← List.map_reverse, List.reverse_reverse, List.map_map]
    exact (congrArg (Nat.ofDigits 10) hdigits).trans (Nat.ofDigits_digits 10 n)

theorem decimal_injective : Function.Injective decimal := by
  intro m n h
  rw [← ofDigits_decimal m, h, ofDigits_decimal]

end Word
