import WifiOffload.Library.Strtoul

/-!
# Unsigned literals and what `std::stoul` reads

`Literal` is the grammar of C's unsigned integer literals: decimal, octal after a `0`, hexadecimal
after a `0x`. The conversion with base 0 reads the longest literal behind white space and a sign,
and leaves the rest of the text alone; `Reading` says so on the text (`stoul_ok_iff`).
-/

namespace Strtoul

/-- A text of digits below `base` only. -/
def IsDigits (base : Nat) (bs : Bytes) : Prop := (digits base bs).length = bs.length

instance (base : Nat) (bs : Bytes) : Decidable (IsDigits base bs) :=
  inferInstanceAs (Decidable (_ = _))

/-- The text is a literal of the number. -/
inductive Literal : Bytes → Nat → Prop where
  | decimal (bs : Bytes) (digits_only : IsDigits 10 bs) (nonempty : bs ≠ [])
      (head : bs.head? ≠ some 48) : Literal bs (ofDigits 10 (digits 10 bs))
  | octal (bs : Bytes) (digits_only : IsDigits 8 bs) :
      Literal (48 :: bs) (ofDigits 8 (digits 8 bs))
  | hexadecimal (x : UInt8) (bs : Bytes) (mark : x = 120 ∨ x = 88) (digits_only : IsDigits 16 bs)
      (nonempty : bs ≠ []) : Literal (48 :: x :: bs) (ofDigits 16 (digits 16 bs))

/-- No literal that the text starts with is longer. -/
def Longest (lit text : Bytes) : Prop :=
  ∀ lit' n, Literal lit' n → lit' <+: text → lit'.length ≤ lit.length

/-- The text as the conversion takes it apart. -/
structure Reading (s spaces sgn lit rest : Bytes) (n : Nat) : Prop where
  split : s = spaces ++ (sgn ++ (lit ++ rest))
  spaces_only : ∀ b ∈ spaces, isSpace b = true
  one_sign : sgn = [] ∨ sgn = [43] ∨ sgn = [45]
  literal : Literal lit n
  longest : Longest lit (lit ++ rest)

/-- A number behind a sign. -/
def signedValue (bits : Nat) (sgn : Bytes) (n : Nat) : Nat :=
  if sgn = [45] then (2 ^ bits - n) % 2 ^ bits else n

/-! ## Digits -/

section Digits

variable {base : Nat} {bs text : Bytes}

theorem length_digits_le (base : Nat) (bs : Bytes) : (digits base bs).length ≤ bs.length := by
  induction bs with
  | nil => simp [digits]
  | cons b bs ih =>
    unfold digits
    split
    · split
      · simpa using ih
      · simp
    · simp

/-- The digits that a text starts with, as a text of their own. -/
theorem digits_take (base : Nat) (bs : Bytes) :
    digits base (bs.take (digits base bs).length) = digits base bs := by
  induction bs with
  | nil => rfl
  | cons b bs ih =>
    cases hd : digitValue b with
    | none => simp [digits, hd]
    | some d =>
      by_cases hlt : d < base
      · simp [digits, hd, hlt, ih]
      · simp [digits, hd, hlt]

theorem isDigits_take (base : Nat) (bs : Bytes) :
    IsDigits base (bs.take (digits base bs).length) := by
  have hle := length_digits_le base bs
  rw [IsDigits, digits_take, List.length_take]
  omega

/-- No longer text of digits stands at the start. -/
theorem IsDigits.length_le (h : IsDigits base bs) (hpre : bs <+: text) :
    bs.length ≤ (digits base text).length := by
  obtain ⟨rest, rfl⟩ := hpre
  rw [digits_append h, List.length_append, h]
  omega

theorem IsDigits.cons {b : UInt8} (h : IsDigits base (b :: bs)) :
    ∃ d, digitValue b = some d ∧ IsDigits base bs := exists_digitValue h

theorem not_isDigits_of_mark {x : UInt8} (hx : x = 120 ∨ x = 88) (h : base ≤ 16) :
    ¬ IsDigits base (x :: bs) := by
  have hvalue : digitValue x = some 33 := by
    rcases hx with rfl | rfl <;> decide
  have hnot : ¬ 33 < base := by omega
  simp [IsDigits, digits, hvalue, hnot]

end Digits

/-! ## Literals -/

section Literals

variable {lit text : Bytes} {n m : Nat}

/-- A literal starts with a digit. -/
theorem Literal.exists_digit (h : Literal lit n) :
    ∃ b bs d, lit = b :: bs ∧ digitValue b = some d := by
  cases h with
  | decimal bs hdigits hne =>
    obtain ⟨b, bs, rfl⟩ := List.exists_cons_of_ne_nil hne
    obtain ⟨d, hd, -⟩ := hdigits.cons
    exact ⟨b, bs, d, rfl, hd⟩
  | octal bs => exact ⟨48, bs, 0, rfl, rfl⟩
  | hexadecimal x bs => exact ⟨48, x :: bs, 0, rfl, rfl⟩

/-- How the conversion reads a text behind its sign: by what stands at its start. -/
theorem magnitude_cases (text : Bytes) :
    (∃ x bs, text = 48 :: x :: bs ∧ (x = 120 ∨ x = 88) ∧ digits 16 bs ≠ [] ∧
      magnitude text = some (ofDigits 16 (digits 16 bs))) ∨
    (∃ bs, text = 48 :: bs ∧ (∀ x hs, bs = x :: hs → (x = 120 ∨ x = 88) → digits 16 hs = []) ∧
      magnitude text = some (ofDigits 8 (digits 8 bs))) ∨
    (text.head? ≠ some 48 ∧ digits 10 text ≠ [] ∧
      magnitude text = some (ofDigits 10 (digits 10 text))) ∨
    (text.head? ≠ some 48 ∧ digits 10 text = [] ∧ magnitude text = none) := by
  unfold magnitude
  split
  · next x bs =>
    split
    · next h =>
      simp only [Bool.and_eq_true, Bool.or_eq_true, decide_eq_true_eq, Bool.not_eq_true',
        List.isEmpty_eq_false_iff] at h
      exact .inl ⟨x, bs, rfl, h.1, h.2, rfl⟩
    · next h =>
      refine .inr (.inl ⟨x :: bs, rfl, ?_, rfl⟩)
      rintro y hs ⟨⟩ hmark
      simpa [hmark] using h
  · exact .inr (.inl ⟨[], rfl, by simp, rfl⟩)
  · next hcons hnil =>
    have hhead : text.head? ≠ some 48 := by
      cases text with
      | nil => simp
      | cons b bs =>
        intro hb
        obtain rfl : b = 48 := by simpa using hb
        cases bs with
        | nil => exact hnil rfl
        | cons x bs => exact hcons x bs rfl
    split
    · next h => exact .inr (.inr (.inr ⟨hhead, List.isEmpty_iff.mp h, rfl⟩))
    · next h => exact .inr (.inr (.inl ⟨hhead, by simpa using h, rfl⟩))

theorem head?_of_prefix_cons {b : UInt8} {bs : Bytes} (h : b :: bs <+: text) :
    text.head? = some b := by
  obtain ⟨rest, rfl⟩ := h
  rfl

theorem Literal.not_decimal_prefix {bs : Bytes} (hne : bs ≠ []) (hhead : bs.head? ≠ some 48)
    {t : Bytes} : ¬ bs <+: 48 :: t := by
  obtain ⟨b, bs, rfl⟩ := List.exists_cons_of_ne_nil hne
  intro hpre
  have hb : (48 :: t).head? = some b := head?_of_prefix_cons hpre
  exact hhead (by simpa using hb.symm)

theorem hexadecimal_longest {x : UInt8} {bs : Bytes} (hmark : x = 120 ∨ x = 88) :
    Longest (48 :: x :: bs.take (digits 16 bs).length) (48 :: x :: bs) := by
  intro lit' n' hlit hpre
  have hlen := (isDigits_take 16 bs).symm.trans (congrArg List.length (digits_take 16 bs))
  cases hlit with
  | decimal bs' hdigits hne hhead => exact absurd hpre (Literal.not_decimal_prefix hne hhead)
  | octal bs' hdigits =>
    -- the mark is no octal digit
    rcases List.prefix_cons_iff.mp (List.cons_prefix_cons.mp hpre).2 with rfl | ⟨t, rfl, -⟩
    · simp
    · exact absurd hdigits (not_isDigits_of_mark hmark (by omega))
  | hexadecimal x' bs' hmark' hdigits =>
    have htail := (List.cons_prefix_cons.mp (List.cons_prefix_cons.mp hpre).2).2
    have hle := hdigits.length_le htail
    simp only [List.length_cons]
    omega

theorem octal_longest {bs : Bytes}
    (hnohex : ∀ x hs, bs = x :: hs → (x = 120 ∨ x = 88) → digits 16 hs = []) :
    Longest (48 :: bs.take (digits 8 bs).length) (48 :: bs) := by
  intro lit' n' hlit hpre
  have hlen := (isDigits_take 8 bs).symm.trans (congrArg List.length (digits_take 8 bs))
  cases hlit with
  | decimal bs' hdigits hne hhead => exact absurd hpre (Literal.not_decimal_prefix hne hhead)
  | octal bs' hdigits =>
    have hle := hdigits.length_le (List.cons_prefix_cons.mp hpre).2
    simp only [List.length_cons]
    omega
  | hexadecimal x bs' hmark hdigits hne =>
    obtain ⟨t, ht⟩ := (List.cons_prefix_cons.mp hpre).2
    have hle := hdigits.length_le (List.prefix_append bs' t)
    rw [hnohex x (bs' ++ t) ht.symm hmark] at hle
    exact absurd (List.length_eq_zero_iff.mp (Nat.le_zero.mp hle)) hne

theorem decimal_longest (hhead : text.head? ≠ some 48) :
    Longest (text.take (digits 10 text).length) text := by
  intro lit' n' hlit hpre
  have hlen := (isDigits_take 10 text).symm.trans (congrArg List.length (digits_take 10 text))
  cases hlit with
  | decimal bs' hdigits =>
    have hle := hdigits.length_le hpre
    omega
  | octal bs' => exact absurd (head?_of_prefix_cons hpre) hhead
  | hexadecimal x bs' => exact absurd (head?_of_prefix_cons hpre) hhead

/-- The number that is read is that of the longest literal. -/
theorem exists_longest_of_magnitude (h : magnitude text = some n) :
    ∃ lit rest, text = lit ++ rest ∧ Literal lit n ∧ Longest lit text := by
  have htake {base : Nat} {bs : Bytes} (hne : digits base bs ≠ []) :
      bs.take (digits base bs).length ≠ [] := by
    intro hnil
    have hread := digits_take base bs
    rw [hnil] at hread
    exact hne hread.symm
  rcases magnitude_cases text with ⟨x, bs, rfl, hmark, hne, heq⟩ | ⟨bs, rfl, hnohex, heq⟩ |
    ⟨hhead, hne, heq⟩ | ⟨-, -, heq⟩
  · obtain rfl : ofDigits 16 (digits 16 bs) = n := Option.some.inj (heq.symm.trans h)
    refine ⟨48 :: x :: bs.take (digits 16 bs).length, bs.drop (digits 16 bs).length, by simp, ?_,
      hexadecimal_longest hmark⟩
    have hlit := Literal.hexadecimal x _ hmark (isDigits_take 16 bs) (htake hne)
    rwa [digits_take] at hlit
  · obtain rfl : ofDigits 8 (digits 8 bs) = n := Option.some.inj (heq.symm.trans h)
    refine ⟨48 :: bs.take (digits 8 bs).length, bs.drop (digits 8 bs).length, by simp, ?_,
      octal_longest hnohex⟩
    have hlit := Literal.octal _ (isDigits_take 8 bs)
    rwa [digits_take] at hlit
  · obtain rfl : ofDigits 10 (digits 10 text) = n := Option.some.inj (heq.symm.trans h)
    refine ⟨text.take (digits 10 text).length, text.drop (digits 10 text).length, by simp, ?_,
      decimal_longest hhead⟩
    have hfirst : (text.take (digits 10 text).length).head? ≠ some 48 := by
      rw [List.head?_take]
      split
      · simp
      · exact hhead
    have hlit := Literal.decimal _ (isDigits_take 10 text) (htake hne) hfirst
    rwa [digits_take] at hlit
  · rw [heq] at h
    cases h

/-- Where a literal stands at the start, a number is read. -/
theorem magnitude_ne_none (hlit : Literal lit n) (hpre : lit <+: text) :
    magnitude text ≠ none := by
  rcases magnitude_cases text with ⟨x, bs, -, -, -, heq⟩ | ⟨bs, -, -, heq⟩ | ⟨-, -, heq⟩ |
    ⟨hhead, hnone, -⟩
  · simp [heq]
  · simp [heq]
  · simp [heq]
  · cases hlit with
    | decimal bs hdigits hne =>
      have hle := hdigits.length_le hpre
      rw [hnone] at hle
      exact absurd (List.length_eq_zero_iff.mp (Nat.le_zero.mp hle)) hne
    | octal bs => exact absurd (head?_of_prefix_cons hpre) hhead
    | hexadecimal x bs => exact absurd (head?_of_prefix_cons hpre) hhead

/-- A text is a literal of one number. -/
theorem Literal.value_unique (h : Literal lit n) (h' : Literal lit m) : n = m := by
  cases h with
  | decimal bs hdigits hne hhead =>
    cases h' with
    | decimal => rfl
    | octal bs => exact absurd rfl hhead
    | hexadecimal x bs => exact absurd rfl hhead
  | octal bs hdigits =>
    cases h' with
    | decimal bs hdigits' hne hhead => exact absurd rfl hhead
    | octal => rfl
    | hexadecimal x bs hmark => exact absurd hdigits (not_isDigits_of_mark hmark (by omega))
  | hexadecimal x bs hmark hdigits =>
    cases h' with
    | decimal bs hdigits' hne hhead => exact absurd rfl hhead
    | octal bs hdigits' => exact absurd hdigits' (not_isDigits_of_mark hmark (by omega))
    | hexadecimal => rfl

/-- The conversion reads the longest literal at the start. -/
theorem magnitude_append {rest : Bytes} (hlit : Literal lit n) (hlong : Longest lit (lit ++ rest)) :
    magnitude (lit ++ rest) = some n := by
  obtain ⟨m, hm⟩ := Option.ne_none_iff_exists'.mp
    (magnitude_ne_none hlit (List.prefix_append lit rest))
  obtain ⟨lit', rest', htext, hlit', hlong'⟩ := exists_longest_of_magnitude hm
  have hpre : lit' <+: lit ++ rest := ⟨rest', htext.symm⟩
  have hle := hlong lit' m hlit' hpre
  have hle' := hlong' lit n hlit (List.prefix_append lit rest)
  -- two prefixes of one length are the same
  have hsame : lit = lit' :=
    (List.prefix_of_prefix_length_le (List.prefix_append lit rest) hpre hle').eq_of_length_le hle
  rw [hm, hlit'.value_unique (hsame ▸ hlit)]

/-! ## The whole conversion -/

theorem dropWhile_isSpace {spaces : Bytes} (h : ∀ b ∈ spaces, isSpace b = true) {b : UInt8}
    {bs : Bytes} (hb : isSpace b = false) :
    (spaces ++ b :: bs).dropWhile isSpace = b :: bs := by
  induction spaces with
  | nil => simp [hb]
  | cons c spaces ih =>
    rw [List.cons_append, List.dropWhile_cons, if_pos (h c (by simp))]
    exact ih fun d hd => h d (by simp [hd])

theorem sign_cases (text : Bytes) :
    ∃ sgn, (sgn = [] ∨ sgn = [43] ∨ sgn = [45]) ∧ text = sgn ++ (sign text).2 ∧
      ((sign text).1 = true ↔ sgn = [45]) := by
  unfold sign
  split
  · exact ⟨[45], by simp⟩
  · exact ⟨[43], by simp⟩
  · exact ⟨[], by simp⟩

namespace Reading

variable {s spaces sgn rest : Bytes}

theorem dropWhile_isSpace (h : Reading s spaces sgn lit rest n) :
    s.dropWhile isSpace = sgn ++ (lit ++ rest) := by
  obtain ⟨b, bs, d, rfl, hd⟩ := h.literal.exists_digit
  rw [h.split]
  rcases h.one_sign with rfl | rfl | rfl
  · exact Strtoul.dropWhile_isSpace h.spaces_only (isSpace_of_digitValue hd)
  · exact Strtoul.dropWhile_isSpace h.spaces_only rfl
  · exact Strtoul.dropWhile_isSpace h.spaces_only rfl

theorem sign_eq (h : Reading s spaces sgn lit rest n) :
    sign (sgn ++ (lit ++ rest)) = (decide (sgn = [45]), lit ++ rest) := by
  obtain ⟨b, bs, d, rfl, hd⟩ := h.literal.exists_digit
  rcases h.one_sign with rfl | rfl | rfl
  · exact sign_of_digitValue hd
  · rfl
  · rfl

/-- A literal is read whole. -/
theorem of_literal (h : Literal s n) : Reading s [] [] s [] n where
  split := by simp
  spaces_only := by simp
  one_sign := .inl rfl
  literal := h
  longest := by
    intro lit' m _ hpre
    simpa using hpre.length_le

/-- There is no other way to take a literal apart. -/
theorem whole_of_literal (h : Reading s spaces sgn lit rest n) (hlit : Literal s m) :
    spaces = [] ∧ sgn = [] ∧ rest = [] := by
  obtain ⟨b, bs, d, hs, hd⟩ := hlit.exists_digit
  have hdrop : s.dropWhile isSpace = s := by
    rw [hs, List.dropWhile_cons, isSpace_of_digitValue hd]
    rfl
  have htext : s = sgn ++ (lit ++ rest) := hdrop.symm.trans h.dropWhile_isSpace
  have hspaces : spaces = [] := by
    have hlen := congrArg List.length (h.split.symm.trans htext)
    rw [List.length_append] at hlen
    exact List.length_eq_zero_iff.mp (by omega)
  have hsgn : sgn = [] := by
    have hsign := h.sign_eq
    rw [← htext, hs, sign_of_digitValue hd, ← hs, Prod.mk.injEq] at hsign
    have hlen := congrArg List.length (htext.symm.trans hsign.2)
    rw [List.length_append] at hlen
    exact List.length_eq_zero_iff.mp (by omega)
  have hrest : rest = [] := by
    rw [htext, hsgn, List.nil_append] at hlit
    have hle := h.longest _ m hlit (List.prefix_refl _)
    rw [List.length_append] at hle
    exact List.length_eq_zero_iff.mp (by omega)
  exact ⟨hspaces, hsgn, hrest⟩

end Reading

/-- The conversion returns the value of the way to take the text apart, where that is in range. -/
theorem stoul_ok_iff {bits : Nat} {s : Bytes} {v : Nat} :
    stoul bits s = .ok v ↔ ∃ spaces sgn lit rest n, Reading s spaces sgn lit rest n ∧
      n < 2 ^ bits ∧ v = signedValue bits sgn n := by
  constructor
  · intro h
    obtain ⟨sgn, hsgn, htext, hnegative⟩ := sign_cases (s.dropWhile isSpace)
    simp only [stoul] at h
    split at h
    · cases h
    next n hn =>
    obtain ⟨lit, rest, hsplit, hlit, hlong⟩ := exists_longest_of_magnitude hn
    split at h
    · cases h
    next hlt =>
    refine ⟨s.takeWhile isSpace, sgn, lit, rest, n, ⟨?_, ?_, hsgn, hlit, hsplit ▸ hlong⟩, by omega,
      ?_⟩
    · rw [← hsplit, ← htext, List.takeWhile_append_dropWhile]
    · exact fun b hb => List.mem_takeWhile_imp hb
    · rw [signedValue]
      split at h
      · next hneg => rw [if_pos (hnegative.mp hneg)]; exact (Except.ok.inj h).symm
      · next hneg => rw [if_neg fun hs => hneg (hnegative.mpr hs)]; exact (Except.ok.inj h).symm
  · rintro ⟨spaces, sgn, lit, rest, n, h, hlt, rfl⟩
    simp only [stoul, h.dropWhile_isSpace, h.sign_eq, magnitude_append h.literal h.longest]
    rw [if_neg (by omega), signedValue]
    by_cases hneg : sgn = [45] <;> simp [hneg]

end Literals

end Strtoul
