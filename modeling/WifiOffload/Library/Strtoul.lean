import WifiOffload.Library.Bytes

/-!
# `std::stoul` with bases 0 and 16

The conversion skips leading white space, accepts one sign, detects the radix from the `0` and
`0x` prefixes (base 16 allows a `0x`) and reads the longest run of digits that follows; text
after it is ignored. A negative number is taken modulo the word size. `bits` is the width of
`unsigned long`.
-/

namespace Strtoul

/-- The two exceptions of `std::stoul`. -/
inductive Exception where
  | invalidArgument | outOfRange
  deriving DecidableEq, Repr

/-- `isspace` in the C locale. -/
def isSpace (b : UInt8) : Bool := b = 32 || (9 ≤ b && b ≤ 13)

/-- The value of a digit or letter in base 36. -/
def digitValue (b : UInt8) : Option Nat :=
  if 48 ≤ b && b ≤ 57 then some (b.toNat - 48)
  else if 97 ≤ b && b ≤ 122 then some (b.toNat - 87)
  else if 65 ≤ b && b ≤ 90 then some (b.toNat - 55)
  else none

/-- The longest prefix of digits below `base`. -/
def digits (base : Nat) : Bytes → List Nat
  | [] => []
  | b :: bs =>
    match digitValue b with
    | some d => if d < base then d :: digits base bs else []
    | none => []

/-- The number that digits in base `base` stand for, the most significant one first. -/
def ofDigits (base : Nat) (ds : List Nat) : Nat := ds.foldl (fun n d => base * n + d) 0

def sign : Bytes → Bool × Bytes
  | 45 :: bs => (true, bs)
  | 43 :: bs => (false, bs)
  | bs => (false, bs)

/-- The number that an unsigned literal starts with. A `0x` that no hexadecimal digit follows
is the literal `0`. The grammar is that of C17, which has no prefix `0b`. -/
def magnitude : Bytes → Option Nat
  | 48 :: x :: bs =>
    if (x = 120 || x = 88) && !(digits 16 bs).isEmpty then some (ofDigits 16 (digits 16 bs))
    else some (ofDigits 8 (digits 8 (x :: bs)))
  | [48] => some 0
  | bs => if (digits 10 bs).isEmpty then none else some (ofDigits 10 (digits 10 bs))

/-- `std::stoul(s, nullptr, 0)`. -/
def stoul (bits : Nat) (s : Bytes) : Except Exception Nat :=
  let (negative, rest) := sign (s.dropWhile isSpace)
  match magnitude rest with
  | none => .error .invalidArgument
  | some n =>
    if 2 ^ bits ≤ n then .error .outOfRange
    else if negative then .ok ((2 ^ bits - n) % 2 ^ bits)
    else .ok n

example : stoul 64 (Bytes.ascii "0x00100001") = .ok 0x00100001 := by decide

/-! ## Base 16 -/

/-- The number that an unsigned hexadecimal literal starts with, a `0x` before its digits or
not. -/
def hexMagnitude : Bytes → Option Nat
  | 48 :: x :: bs =>
    if (x = 120 || x = 88) && !(digits 16 bs).isEmpty then some (ofDigits 16 (digits 16 bs))
    else some (ofDigits 16 (digits 16 (48 :: x :: bs)))
  | bs => if (digits 16 bs).isEmpty then none else some (ofDigits 16 (digits 16 bs))

/-- `std::stoul(s, nullptr, 16)`. -/
def stoulHex (bits : Nat) (s : Bytes) : Except Exception Nat :=
  let (negative, rest) := sign (s.dropWhile isSpace)
  match hexMagnitude rest with
  | none => .error .invalidArgument
  | some n =>
    if 2 ^ bits ≤ n then .error .outOfRange
    else if negative then .ok ((2 ^ bits - n) % 2 ^ bits)
    else .ok n

/-! ## Texts of digits -/

variable {base : Nat}

theorem ofDigits_concat (d : Nat) (ds : List Nat) :
    ofDigits base (ds ++ [d]) = base * ofDigits base ds + d := by
  simp [ofDigits, List.foldl_append]

/-- A text of digits only is read to its end. -/
theorem digits_append {bs rest : Bytes} (h : (digits base bs).length = bs.length) :
    digits base (bs ++ rest) = digits base bs ++ digits base rest := by
  induction bs with
  | nil => rfl
  | cons b bs ih =>
    simp only [digits, List.cons_append] at h ⊢
    split
    · next d hd =>
      simp only [hd] at h
      split
      · next hlt =>
        rw [if_pos hlt, List.length_cons, List.length_cons] at h
        rw [ih (by omega), List.cons_append]
      · next hlt => simp [hlt] at h
    · next hd => simp [hd] at h

/-- What a text of digits only starts with. -/
theorem exists_digitValue {b : UInt8} {bs : Bytes}
    (h : (digits base (b :: bs)).length = (b :: bs).length) :
    ∃ d, digitValue b = some d ∧ (digits base bs).length = bs.length := by
  unfold digits at h
  split at h
  · next d hd =>
    split at h
    · exact ⟨d, hd, by simpa using h⟩
    · simp at h
  · simp at h

theorem isSpace_of_digitValue {b : UInt8} {d : Nat} (h : digitValue b = some d) :
    isSpace b = false := by
  -- the digits and the letters lie above the spaces
  have habove : 48 ≤ b := by grind [digitValue]
  grind [isSpace]

theorem sign_of_digitValue {b : UInt8} {bs : Bytes} {d : Nat} (h : digitValue b = some d) :
    sign (b :: bs) = (false, b :: bs) := by
  unfold sign
  split
  · next heq => cases heq; cases h
  · next heq => cases heq; cases h
  · rfl

theorem hexMagnitude_of_digits {s : Bytes} (h : (digits 16 s).length = s.length) (hne : s ≠ []) :
    hexMagnitude s = some (ofDigits 16 (digits 16 s)) := by
  have hdigits : (digits 16 s).isEmpty = false := by
    cases hs : digits 16 s with
    | nil => exact absurd (List.length_eq_zero_iff.mp (by simpa [hs] using h.symm)) hne
    | cons d ds => rfl
  unfold hexMagnitude
  split
  · next x bs =>
    -- an `x` is no digit
    obtain ⟨-, -, hx⟩ := exists_digitValue h
    have hnox : ¬ (x = 120 ∨ x = 88) := by
      rintro (rfl | rfl) <;> simp [digits, digitValue] at hx
    simp [hnox]
  · simp [hdigits]

/-- A text of hexadecimal digits only is the number they stand for. -/
theorem stoulHex_of_digits {bits : Nat} {s : Bytes} (h : (digits 16 s).length = s.length)
    (hne : s ≠ []) (hlt : ofDigits 16 (digits 16 s) < 2 ^ bits) :
    stoulHex bits s = .ok (ofDigits 16 (digits 16 s)) := by
  obtain ⟨b, bs, rfl⟩ := List.exists_cons_of_ne_nil hne
  obtain ⟨d, hd, -⟩ := exists_digitValue h
  have hspace : (b :: bs).dropWhile isSpace = b :: bs := by
    rw [List.dropWhile_cons, isSpace_of_digitValue hd]
    rfl
  simp only [stoulHex, hspace, sign_of_digitValue hd, hexMagnitude_of_digits h hne]
  rw [if_neg (by omega)]
  rfl

end Strtoul
