import Mathlib

/-!
# Byte strings, fixed-width character arrays and little-endian words

Strings of the modelled program are byte strings. A C character array of `n` bytes is a byte
string of that length; `cString` reads it up to the first zero byte and `strncpy` fills it the
way the C function fills a zeroed array of `n` bytes when told to write at most `n - 1` of them.
-/

/-- A `std::string`: any bytes, zero bytes included. -/
abbrev Bytes := List UInt8

namespace Bytes

/-- Membership in lists of byte strings is decided through this instance. -/
instance lawfulBEq : LawfulBEq Bytes := inferInstance

/-- The bytes of a string of ASCII characters. -/
def ascii (s : String) : Bytes := s.toList.map fun c => c.toNat.toUInt8

/-- The bytes before the first zero byte. -/
def cString (bs : Bytes) : Bytes := bs.takeWhile (· ≠ 0)

theorem length_cString_le (bs : Bytes) : (cString bs).length ≤ bs.length :=
  (List.takeWhile_sublist _).length_le

@[simp] theorem cString_cString (bs : Bytes) : cString (cString bs) = cString bs :=
  List.takeWhile_idem

theorem zero_not_mem_cString (bs : Bytes) : 0 ∉ cString bs := by
  intro h
  have hne := List.mem_takeWhile_imp (p := fun b : UInt8 => decide (b ≠ 0)) h
  simp at hne

theorem cString_eq_self_iff {bs : Bytes} : cString bs = bs ↔ 0 ∉ bs := by
  rw [cString, List.takeWhile_eq_self_iff]
  simp only [decide_eq_true_eq]
  grind

/-- Cut or fill up with zero bytes to exactly `n` bytes. -/
def padTo (n : Nat) (bs : Bytes) : Bytes := bs.take n ++ List.replicate (n - bs.length) 0

@[simp] theorem length_padTo (n : Nat) (bs : Bytes) : (padTo n bs).length = n := by
  simp [padTo]
  omega

theorem padTo_of_le {n : Nat} {bs : Bytes} (h : bs.length ≤ n) :
    padTo n bs = bs ++ List.replicate (n - bs.length) 0 := by
  rw [padTo, List.take_of_length_le h]

/-- What is filled up lies behind what is complete. -/
theorem padTo_append {n : Nat} {as bs : Bytes} (h : as.length ≤ n) :
    padTo n (as ++ bs) = as ++ padTo (n - as.length) bs := by
  rw [padTo, padTo, List.take_append, List.take_of_length_le h, List.length_append,
    Nat.sub_add_eq, List.append_assoc]

theorem padTo_length (bs : Bytes) : padTo bs.length bs = bs := by
  rw [padTo_of_le le_rfl, Nat.sub_self, List.replicate_zero, List.append_nil]

theorem getElem?_padTo {n i : Nat} {bs : Bytes} (h : i < n) :
    (padTo n bs)[i]? = some (bs.getD i 0) := by
  by_cases hi : i < bs.length
  · rw [padTo, List.getElem?_append_left (by simp; omega)]
    simp [h, hi]
  · have hget : bs.getD i 0 = 0 := by simp [List.getD_eq_getElem?_getD, hi]
    have hrep : i - bs.length < n - bs.length := by omega
    have hlen : min n bs.length = bs.length := by omega
    rw [hget, padTo, List.getElem?_append_right (by simp; omega)]
    simp [hlen, hrep]

/-- Zero bytes behind a string do not count. -/
theorem cString_padTo {n : Nat} {bs : Bytes} (h : (cString bs).length < n) :
    cString (padTo n (cString bs)) = cString bs := by
  obtain ⟨fill, hfill⟩ : ∃ fill, n - (cString bs).length = fill + 1 :=
    ⟨n - (cString bs).length - 1, by omega⟩
  have hall : ∀ b ∈ cString bs, decide (b ≠ 0) = true := fun b hb =>
    List.mem_takeWhile_imp (p := fun b : UInt8 => decide (b ≠ 0)) hb
  rw [padTo, List.take_of_length_le (by omega), hfill, List.replicate_succ]
  exact (List.takeWhile_append_of_pos hall).trans (by simp)

theorem getD_padTo {n i : Nat} {bs : Bytes} (h : i < n) : (padTo n bs).getD i 0 = bs.getD i 0 := by
  rw [List.getD_eq_getElem?_getD, getElem?_padTo h, Option.getD_some]

theorem padTo_eq_padTo_iff {n : Nat} {as bs : Bytes} :
    padTo n as = padTo n bs ↔ ∀ i < n, as.getD i 0 = bs.getD i 0 := by
  constructor
  · intro h i hi
    rw [← getD_padTo hi, h, getD_padTo hi]
  · intro h
    refine List.ext_getElem? fun i => ?_
    by_cases hi : i < n
    · rw [getElem?_padTo hi, getElem?_padTo hi, h i hi]
    · rw [List.getElem?_eq_none (by simpa using hi), List.getElem?_eq_none (by simpa using hi)]

/-- The little-endian bytes of the lowest `k` bytes of `n`. -/
def le : Nat → Nat → Bytes
  | 0, _ => []
  | k + 1, n => UInt8.ofNat n :: le k (n / 256)

/-- The number that little-endian bytes stand for. -/
def ofLE : Bytes → Nat
  | [] => 0
  | b :: bs => b.toNat + 256 * ofLE bs

@[simp] theorem length_le (k n : Nat) : (le k n).length = k := by
  induction k generalizing n with
  | zero => rfl
  | succ k ih => simp [le, ih]

/-- Only the lowest `k` bytes of a number survive. -/
theorem ofLE_le (k n : Nat) : ofLE (le k n) = n % 256 ^ k := by
  induction k generalizing n with
  | zero => simp [le, ofLE, Nat.mod_one]
  | succ k ih =>
    have hlow : (UInt8.ofNat n).toNat = n % 256 := UInt8.toNat_ofNat'
    calc ofLE (le (k + 1) n) = n % 256 + 256 * (n / 256 % 256 ^ k) := by rw [le, ofLE, ih, hlow]
      _ = n % (256 * 256 ^ k) := Nat.mod_mul.symm
      _ = n % 256 ^ (k + 1) := by rw [Nat.pow_succ']

theorem ofLE_lt (bs : Bytes) : ofLE bs < 256 ^ bs.length := by
  induction bs with
  | nil => simp [ofLE]
  | cons b bs ih =>
    have hb := b.toNat_lt
    rw [ofLE, List.length_cons, Nat.pow_succ]
    omega

/-- The bytes of a number are those it was read from. -/
theorem le_ofLE (bs : Bytes) : le bs.length (ofLE bs) = bs := by
  induction bs with
  | nil => rfl
  | cons b bs ih =>
    have hb := b.toNat_lt
    have hlow : UInt8.ofNat (b.toNat + 256 * ofLE bs) = b := by
      apply UInt8.toNat_inj.mp
      rw [UInt8.toNat_ofNat']
      omega
    have hhigh : (b.toNat + 256 * ofLE bs) / 256 = ofLE bs := by omega
    rw [List.length_cons, ofLE, le, hlow, hhigh, ih]

/-- The number in the first `k` bytes, and the bytes behind them. -/
def readLE (k : Nat) (bs : Bytes) : Nat × Bytes := (ofLE (bs.take k), bs.drop k)

@[simp] theorem readLE_append (k n : Nat) (rest : Bytes) :
    readLE k (le k n ++ rest) = (n % 256 ^ k, rest) := by
  have htake : (le k n ++ rest).take k = le k n := by
    rw [List.take_append_of_le_length (by simp), List.take_of_length_le (by simp)]
  have hdrop : (le k n ++ rest).drop k = rest := by
    rw [List.drop_append_of_le_length (by simp), List.drop_of_length_le (by simp), List.nil_append]
  rw [readLE, htake, hdrop, ofLE_le]

/-! ### Words that were written as bytes -/

theorem uint8_ofNat_mod (n : UInt8) : UInt8.ofNat (n.toNat % 256 ^ 1) = n := by
  have hlt : n.toNat < 256 ^ 1 := UInt8.toNat_lt n
  rw [Nat.mod_eq_of_lt hlt, UInt8.ofNat_toNat]

theorem uint16_ofNat_mod (n : UInt16) : UInt16.ofNat (n.toNat % 256 ^ 2) = n := by
  have hlt : n.toNat < 256 ^ 2 := UInt16.toNat_lt n
  rw [Nat.mod_eq_of_lt hlt, UInt16.ofNat_toNat]

theorem uint32_ofNat_mod (n : UInt32) : UInt32.ofNat (n.toNat % 256 ^ 4) = n := by
  have hlt : n.toNat < 256 ^ 4 := UInt32.toNat_lt n
  rw [Nat.mod_eq_of_lt hlt, UInt32.ofNat_toNat]

theorem uint64_ofNat_mod (n : UInt64) : UInt64.ofNat (n.toNat % 256 ^ 8) = n := by
  have hlt : n.toNat < 256 ^ 8 := UInt64.toNat_lt n
  rw [Nat.mod_eq_of_lt hlt, UInt64.ofNat_toNat]

end Bytes

/-- A `char[n]`. -/
abbrev CharArray (n : Nat) := { bs : Bytes // bs.length = n }

namespace CharArray

/-- `char a[n]{}; strncpy(a, src.c_str(), n - 1)`. -/
def strncpy (n : Nat) (src : Bytes) : CharArray n :=
  ⟨Bytes.padTo n ((Bytes.cString src).take (n - 1)), Bytes.length_padTo n _⟩

def zero (n : Nat) : CharArray n := ⟨List.replicate n 0, List.length_replicate⟩

/-- `std::string{a, strnlen(a, sizeof a)}`. -/
def toString {n : Nat} (a : CharArray n) : Bytes := Bytes.cString a.val

/-- What the array of a string reads back as. -/
theorem toString_strncpy_take {n : Nat} (src : Bytes) :
    (strncpy (n + 1) src).toString = (Bytes.cString src).take n := by
  have hcut : Bytes.cString ((Bytes.cString src).take n) = (Bytes.cString src).take n := by
    apply Bytes.cString_eq_self_iff.mpr
    intro hzero
    exact Bytes.zero_not_mem_cString src (List.mem_of_mem_take hzero)
  have hlen : (Bytes.cString ((Bytes.cString src).take n)).length < n + 1 := by
    rw [hcut, List.length_take]
    omega
  have hread := Bytes.cString_padTo hlen
  rwa [hcut] at hread

/-- A string that fits with its zero byte is read back. -/
theorem toString_strncpy {n : Nat} {src : Bytes} (h : src.length < n) :
    (strncpy n src).toString = Bytes.cString src := by
  have hle := Bytes.length_cString_le src
  obtain ⟨m, rfl⟩ : ∃ m, n = m + 1 := ⟨n - 1, by omega⟩
  rw [toString_strncpy_take, List.take_of_length_le (by omega)]

/-- The strings that survive the array are the ones that fit and hold no zero byte. -/
theorem toString_strncpy_eq_self_iff {n : Nat} {src : Bytes} :
    (strncpy (n + 1) src).toString = src ↔ src.length ≤ n ∧ 0 ∉ src := by
  rw [toString_strncpy_take]
  constructor
  · intro h
    have hlen := congrArg List.length h
    rw [List.length_take] at hlen
    refine ⟨by omega, fun hzero => ?_⟩
    rw [← h] at hzero
    exact Bytes.zero_not_mem_cString src (List.mem_of_mem_take hzero)
  · rintro ⟨hlen, hzero⟩
    rw [Bytes.cString_eq_self_iff.mpr hzero, List.take_of_length_le hlen]

/-- The first `n` bytes as an array. -/
def ofBytes (n : Nat) (bs : Bytes) : CharArray n := ⟨Bytes.padTo n bs, Bytes.length_padTo n bs⟩

variable {n : Nat}

/-- The bytes in the opposite order. -/
def reverse (a : CharArray n) : CharArray n := ⟨a.val.reverse, by rw [List.length_reverse, a.2]⟩

@[simp] theorem reverse_zero : (zero n).reverse = zero n :=
  Subtype.ext List.reverse_replicate

theorem reverse_injective : Function.Injective (reverse : CharArray n → CharArray n) :=
  fun _ _ h => Subtype.ext (List.reverse_injective (congrArg Subtype.val h))

theorem reverse_eq_zero_iff {a : CharArray n} : a.reverse = zero n ↔ a = zero n := by
  constructor
  · intro h
    apply reverse_injective
    rw [h, reverse_zero]
  · rintro rfl
    exact reverse_zero

@[simp] theorem ofBytes_append (a : CharArray n) (rest : Bytes) :
    ofBytes n (a.val ++ rest) = a := by
  have hlen := a.2
  have hfill : n - (a.val ++ rest).length = 0 := by
    rw [List.length_append]
    omega
  apply Subtype.ext
  calc Bytes.padTo n (a.val ++ rest) = (a.val ++ rest).take n := by
        rw [Bytes.padTo, hfill, List.replicate_zero, List.append_nil]
    _ = a.val := by
        rw [List.take_append_of_le_length (by omega), List.take_of_length_le (by omega)]

@[simp] theorem ofBytes_val (a : CharArray n) : ofBytes n a.val = a := by
  simpa using ofBytes_append a []

end CharArray
