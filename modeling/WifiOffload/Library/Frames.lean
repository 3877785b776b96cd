import Mathlib

/-!
# Frames of one length

Sequences of frames, each the encoding of a value in the same number of bytes. A sequence of
frames with less than a frame behind it is a sequence of frames again only if nothing is behind
it, and stands for the same values. `Whole` follows what the values have in common through the
frames that are put behind a sequence and those that are taken from its front.
-/

namespace Frames

variable {α β : Type*} {encode : α → List β} {n : Nat}

/-- Frames can be told apart from what they stand for, and no front of one completes others. -/
theorem eq_of_append (hlen : ∀ a, (encode a).length = n) (hinj : Function.Injective encode)
    {as bs : List α} {rest : List β} (hrest : rest.length < n)
    (h : as.flatMap encode ++ rest = bs.flatMap encode) : bs = as ∧ rest = [] := by
  induction as generalizing bs with
  | nil =>
    cases bs with
    | nil => exact ⟨rfl, h⟩
    | cons b bs =>
      have hlength := congrArg List.length h
      simp [hlen] at hlength
      omega
  | cons a as ih =>
    cases bs with
    | nil =>
      have hlength := congrArg List.length h
      simp [hlen] at hlength
      omega
    | cons b bs =>
      rw [List.flatMap_cons, List.flatMap_cons, List.append_assoc] at h
      obtain ⟨hhead, htail⟩ := List.append_inj h ((hlen a).trans (hlen b).symm)
      obtain ⟨rfl, hnil⟩ := ih htail
      exact ⟨by rw [hinj hhead], hnil⟩

/-- A sequence of frames of values that `P` holds of. -/
def Whole (encode : α → List β) (P : α → Prop) (bytes : List β) : Prop :=
  ∃ as : List α, bytes = as.flatMap encode ∧ ∀ a ∈ as, P a

namespace Whole

variable {P Q : α → Prop} {bytes : List β}

theorem nil : Whole encode P [] := ⟨[], rfl, by simp⟩

theorem frames {as : List α} (h : ∀ a ∈ as, P a) : Whole encode P (as.flatMap encode) :=
  ⟨as, rfl, h⟩

theorem frame {a : α} (h : P a) : Whole encode P (encode a) := ⟨[a], by simp, by simpa using h⟩

theorem mono (h : Whole encode P bytes) (hPQ : ∀ a, P a → Q a) : Whole encode Q bytes := by
  obtain ⟨as, hbytes, has⟩ := h
  exact ⟨as, hbytes, fun a ha => hPQ a (has a ha)⟩

theorem append {more : List β} (h : Whole encode P bytes) (hmore : Whole encode P more) :
    Whole encode P (bytes ++ more) := by
  obtain ⟨as, rfl, has⟩ := h
  obtain ⟨bs, rfl, hbs⟩ := hmore
  exact ⟨as ++ bs, List.flatMap_append.symm, List.forall_mem_append.mpr ⟨has, hbs⟩⟩

/-- The first bytes, as many as a frame has, are one. -/
theorem split (hlen : ∀ a, (encode a).length = n) (h : Whole encode P bytes) (hpos : 0 < n)
    (hn : n ≤ bytes.length) :
    ∃ a, P a ∧ bytes.take n = encode a ∧ Whole encode P (bytes.drop n) := by
  obtain ⟨as, rfl, has⟩ := h
  cases as with
  | nil =>
    rw [List.flatMap_nil, List.length_nil] at hn
    omega
  | cons a as =>
    obtain ⟨ha, has⟩ := List.forall_mem_cons.mp has
    rw [List.flatMap_cons, List.take_left' (hlen a), List.drop_left' (hlen a)]
    exact ⟨a, ha, rfl, frames has⟩

end Whole
end Frames
