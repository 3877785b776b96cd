import WifiOffload.Library.Strtoul

/-!
# Text fields

Fields `key=value` of a text. `behind` is the text behind the first occurrence of a key and
`firstWord` a text up to its first space. A table is read by `lines` and their `columns`.
`FromChars` reads integers: `scan` is the integer that a text starts with, `int?` the one that
`std::from_chars` finds for an `int`, `integer?` the one that a text is as a whole, and `decimal`
writes one.
-/

namespace Bytes

/-- The text behind the first occurrence of `key`. -/
def behind (key : Bytes) : Bytes → Option Bytes
  | [] => if key = [] then some [] else none
  | b :: bs => if key <+: b :: bs then some ((b :: bs).drop key.length) else behind key bs

/-- The text up to its first space. -/
def firstWord (s : Bytes) : Bytes := s.takeWhile (· ≠ 32)

/-- The words of a text, cut at every space. -/
def words (s : Bytes) : List Bytes := s.splitOn 32

theorem behind_append (key rest : Bytes) : behind key (key ++ rest) = some rest := by
  cases key with
  | nil => cases rest <;> simp [behind]
  | cons k ks => simp [behind]

/-- A text without the first byte of the key is skipped. -/
theorem behind_skip {k : UInt8} {ks text : Bytes} (h : k ∉ text) (rest : Bytes) :
    behind (k :: ks) (text ++ rest) = behind (k :: ks) rest := by
  induction text with
  | nil => rfl
  | cons b bs ih =>
    rw [List.mem_cons, not_or] at h
    have hno : ¬ (k :: ks) <+: b :: (bs ++ rest) := fun hpre =>
      h.1 (List.cons_prefix_cons.mp hpre).1
    rw [List.cons_append, behind, if_neg hno, ih h.2]

theorem firstWord_append {word : Bytes} (h : 32 ∉ word) (rest : Bytes) :
    firstWord (word ++ 32 :: rest) = word := by
  have hall : ∀ b ∈ word, decide (b ≠ 32) = true := fun b hb =>
    decide_eq_true fun heq => h (heq ▸ hb)
  rw [firstWord, List.takeWhile_append_of_pos hall]
  simp

theorem words_append {word : Bytes} (h : 32 ∉ word) (rest : Bytes) :
    words (word ++ 32 :: rest) = word :: words rest :=
  List.splitOn_append_cons_self_of_not_mem h rest

theorem words_of_not_mem {word : Bytes} (h : 32 ∉ word) : words word = [word] :=
  List.splitOn_eq_singleton h

/-! ## Fields of separate words -/

/-- A pattern that lacks a byte does not reach over it. -/
theorem isPrefix_append_cons_iff {sep : UInt8} {key word rest : Bytes} (h : sep ∉ key) :
    key <+: word ++ sep :: rest ↔ key <+: word := by
  constructor
  · intro hpre
    have hword : word ++ [sep] <+: word ++ sep :: rest := ⟨rest, by simp⟩
    rcases List.prefix_or_prefix_of_prefix hpre hword with hin | hover
    · rcases List.prefix_concat_iff.mp hin with rfl | hin
      · exact absurd (by simp) h
      · exact hin
    · exact absurd (hover.subset (by simp)) h
  · intro hpre
    exact hpre.trans (List.prefix_append word _)

/-- The text behind a key is an end of the text. -/
theorem suffix_of_behind {key text rest : Bytes} (h : behind key text = some rest) :
    rest <:+ text := by
  induction text with
  | nil =>
    obtain ⟨-, rfl⟩ : key = [] ∧ [] = rest := by simpa [behind] using h
    exact List.suffix_refl []
  | cons b bs ih =>
    rw [behind] at h
    split at h
    · obtain rfl := Option.some.inj h
      exact List.drop_suffix _ _
    · exact (ih h).trans (List.suffix_cons b bs)

/-- A key is found in the word before a separator, or behind that. -/
theorem behind_append_cons {sep : UInt8} {key : Bytes} (hkey : sep ∉ key) (hne : key ≠ [])
    (word rest : Bytes) : behind key (word ++ sep :: rest) =
      match behind key word with
      | some r => some (r ++ sep :: rest)
      | none => behind key rest := by
  induction word with
  | nil =>
    have hno : ¬ key <+: sep :: rest := by
      intro hpre
      have hnil : key <+: [] := (isPrefix_append_cons_iff hkey).mp hpre
      exact hne (List.prefix_nil.mp hnil)
    simp [behind, hno, hne]
  | cons b bs ih =>
    have hiff : key <+: b :: (bs ++ sep :: rest) ↔ key <+: b :: bs := by
      rw [← List.cons_append]
      exact isPrefix_append_cons_iff hkey
    rw [List.cons_append, behind, behind]
    by_cases hpre : key <+: b :: bs
    · have hlen := hpre.length_le
      rw [if_pos (hiff.mpr hpre), if_pos hpre, ← List.cons_append,
        List.drop_append_of_le_length hlen]
    · rw [if_neg (mt hiff.mp hpre), if_neg hpre, ih]

/-- Words, each behind a space. -/
def spaced (ws : List Bytes) : Bytes := ws.flatMap fun w => 32 :: w

/-- What follows a key up to the next space stands in the first word that holds the key. -/
theorem firstWord_behind_spaced {key : Bytes} (hkey : 32 ∉ key) (hne : key ≠ []) {word : Bytes}
    {ws : List Bytes} (hws : ∀ w ∈ word :: ws, 32 ∉ w) :
    (behind key (word ++ spaced ws)).map firstWord = (word :: ws).findSome? (behind key) := by
  have hsuffix {w r : Bytes} (hw : w ∈ word :: ws) (hr : behind key w = some r) : 32 ∉ r :=
    fun h => hws w hw ((suffix_of_behind hr).subset h)
  induction ws generalizing word with
  | nil =>
    rw [spaced, List.flatMap_nil, List.append_nil, List.findSome?_cons]
    cases hr : behind key word with
    | none => rfl
    | some r =>
      have hno := hsuffix (by simp) hr
      have hread : firstWord r = r :=
        List.takeWhile_eq_self_iff.mpr fun b hb => decide_eq_true fun heq => hno (heq ▸ hb)
      simp [hread]
  | cons w ws ih =>
    have htext : word ++ spaced (w :: ws) = word ++ 32 :: (w ++ spaced ws) := by simp [spaced]
    rw [htext, behind_append_cons hkey hne, List.findSome?_cons]
    cases hr : behind key word with
    | none =>
      refine ih (fun v hv => hws v (by simp [hv])) fun {v r} hv hr => ?_
      exact hsuffix (List.mem_cons_of_mem _ hv) hr
    | some r => simp [firstWord_append (hsuffix (by simp) hr)]

/-! ## Lines and columns -/

/-- The lines that `std::getline` reads one after the other; the last one may lack its end. -/
def lines : Bytes → List Bytes
  | [] => []
  | b :: bs =>
    if b = 10 then [] :: lines bs
    else
      match lines bs with
      | [] => [[b]]
      | line :: rest => (b :: line) :: rest

/-- The words of a line that `>>` reads one after the other. -/
def columns (line : Bytes) : List Bytes := (line.splitOnP Strtoul.isSpace).filter (· ≠ [])

theorem lines_append {line : Bytes} (h : 10 ∉ line) (rest : Bytes) :
    lines (line ++ 10 :: rest) = line :: lines rest := by
  induction line with
  | nil => simp [lines]
  | cons b bs ih =>
    rw [List.mem_cons, not_or] at h
    rw [List.cons_append, lines, if_neg (Ne.symm h.1), ih h.2]

theorem columns_append {word : Bytes} (hne : word ≠ []) (h : ∀ b ∈ word, Strtoul.isSpace b = false)
    (rest : Bytes) : columns (word ++ 9 :: rest) = word :: columns rest := by
  rw [columns, List.splitOnP_append_cons_of_forall_mem h 9 rfl]
  simp [columns, hne]

end Bytes

namespace FromChars

open Strtoul (digits ofDigits digits_append ofDigits_concat)

/-- The integer that a text starts with, and the text behind it. -/
def scan (s : Bytes) : Option (Int × Bytes) :=
  match s with
  | 45 :: bs =>
    if digits 10 bs = [] then none
    else some (-(ofDigits 10 (digits 10 bs) : Int), bs.drop (digits 10 bs).length)
  | bs =>
    if digits 10 bs = [] then none
    else some ((ofDigits 10 (digits 10 bs) : Int), bs.drop (digits 10 bs).length)

/-- The values of an `int` of 32 bits. -/
def InRange (v : Int) : Prop := -2 ^ 31 ≤ v ∧ v < 2 ^ 31

instance (v : Int) : Decidable (InRange v) := inferInstanceAs (Decidable (_ ∧ _))

/-- The integer in the range of an `int` that a text starts with. -/
def int? (s : Bytes) : Option Int :=
  match scan s with
  | some (v, _) => if InRange v then some v else none
  | none => none

/-- `std::from_chars(s, value)`: the value is left alone where the conversion fails. -/
def fromChars (s : Bytes) (value : Int) : Int := (int? s).getD value

/-- The integer that a text is. -/
def integer? (s : Bytes) : Option Int :=
  match scan s with
  | some (v, []) => some v
  | _ => none

theorem int?_of_integer? {s : Bytes} {v : Int} (h : integer? s = some v) (hv : InRange v) :
    int? s = some v := by
  unfold integer? at h
  split at h
  · next hscan => grind [int?]
  · cases h

/-! ## Writing an integer -/

/-- The decimal digits of a number. -/
def decimalNat (n : Nat) : Bytes :=
  if n < 10 then [UInt8.ofNat (48 + n)]
  else decimalNat (n / 10) ++ [UInt8.ofNat (48 + n % 10)]

/-- An integer as text. -/
def decimal (v : Int) : Bytes := if v < 0 then 45 :: decimalNat v.natAbs else decimalNat v.natAbs

/-- The byte of a digit is read as the digit. -/
theorem digitValue_digit {d : Nat} (h : d < 10) :
    Strtoul.digitValue (UInt8.ofNat (48 + d)) = some d := by
  decide +revert

theorem digits_digit {d : Nat} (h : d < 10) : digits 10 [UInt8.ofNat (48 + d)] = [d] := by
  simp only [digits, digitValue_digit h, if_pos h]

/-- Every byte of a written number is a digit, and together they stand for the number. -/
theorem digits_decimalNat (n : Nat) :
    (digits 10 (decimalNat n)).length = (decimalNat n).length ∧
      ofDigits 10 (digits 10 (decimalNat n)) = n := by
  induction n using decimalNat.induct with
  | case1 n h =>
    rw [decimalNat, if_pos h, digits_digit h]
    simp [ofDigits]
  | case2 n h ih =>
    have hlast : n % 10 < 10 := Nat.mod_lt n (by decide)
    rw [decimalNat, if_neg h, digits_append ih.1, digits_digit hlast, ofDigits_concat, ih.2]
    exact ⟨by simp [ih.1], by omega⟩

/-- A written integer is one word. -/
theorem space_not_mem_decimal (v : Int) : 32 ∉ decimal v := by
  have hdigit : ∀ d < 10, (32 : UInt8) ≠ UInt8.ofNat (48 + d) := by decide
  have hnat (n : Nat) : 32 ∉ decimalNat n := by
    induction n using decimalNat.induct with
    | case1 n h =>
      rw [decimalNat, if_pos h, List.mem_singleton]
      exact hdigit n h
    | case2 n h ih =>
      rw [decimalNat, if_neg h, List.mem_append, List.mem_singleton]
      exact not_or.mpr ⟨ih, hdigit (n % 10) (by omega)⟩
  unfold decimal
  split
  · simpa using hnat v.natAbs
  · exact hnat v.natAbs

theorem scan_of_digits {s : Bytes} (h : digits 10 s ≠ []) :
    scan s = some ((ofDigits 10 (digits 10 s) : Int), s.drop (digits 10 s).length) := by
  unfold scan
  split
  · exact absurd rfl h
  · rw [if_neg h]

/-- A written integer is read back, with what stands behind it. -/
theorem scan_decimal (v : Int) {rest : Bytes} (hrest : digits 10 rest = []) :
    scan (decimal v ++ rest) = some (v, rest) := by
  obtain ⟨hlen, hvalue⟩ := digits_decimalNat v.natAbs
  have hdigits : digits 10 (decimalNat v.natAbs ++ rest) = digits 10 (decimalNat v.natAbs) := by
    rw [digits_append hlen, hrest, List.append_nil]
  have hne : digits 10 (decimalNat v.natAbs) ≠ [] := by
    intro hnil
    rw [hnil] at hlen
    have hpos : 0 < (decimalNat v.natAbs).length := by
      unfold decimalNat
      split <;> simp
    simp at hlen
    omega
  have hdrop :
      (decimalNat v.natAbs ++ rest).drop (digits 10 (decimalNat v.natAbs)).length = rest := by
    rw [hlen, List.drop_left]
  unfold decimal
  split
  · have habs : -(v.natAbs : Int) = v := by omega
    simp only [scan, List.cons_append, hdigits, if_neg hne, hdrop, hvalue, habs]
  · have habs : (v.natAbs : Int) = v := by omega
    rw [scan_of_digits (by rwa [hdigits]), hdigits, hdrop, hvalue, habs]

theorem integer?_decimal (v : Int) : integer? (decimal v) = some v := by
  have hscan := scan_decimal v (rfl : digits 10 [] = [])
  rw [List.append_nil] at hscan
  simp [integer?, hscan]

end FromChars
