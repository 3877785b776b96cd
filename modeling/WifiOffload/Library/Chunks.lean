import WifiOffload.Library.Bytes

/-!
# Chunks that say how long they are

A buffer holds chunks one behind the other, each with its length in a header of its own and
filled up to a boundary. The walk over a buffer takes chunk after chunk and ends at the first one
whose length cannot be right. A chunk on its own is what the walk finds.
-/

/-- How a chunk says its length, header included, and where the next one starts. -/
structure ChunkFormat where
  header : Nat
  align : Nat
  lengthOf : Bytes → Nat
  header_pos : 0 < header
  align_pos : 0 < align
  lengthOf_take : ∀ bs, lengthOf (bs.take header) = lengthOf bs

namespace ChunkFormat

variable (F : ChunkFormat)

/-- The next boundary. -/
def roundUp (n : Nat) : Nat := (n + (F.align - 1)) / F.align * F.align

/-- A chunk has a header, which has its length. -/
structure Chunk (c : Bytes) : Prop where
  header_le : F.header ≤ c.length
  lengthOf_eq : F.lengthOf c = c.length

/-- A chunk starts here. -/
def Starts (bs : Bytes) : Prop :=
  F.header ≤ bs.length ∧ F.header ≤ F.lengthOf bs ∧ F.lengthOf bs ≤ bs.length

instance (bs : Bytes) : Decidable (F.Starts bs) := inferInstanceAs (Decidable (_ ∧ _ ∧ _))

/-- The first chunks of a buffer, at most so many. -/
def chunksFrom : Nat → Bytes → List Bytes
  | 0, _ => []
  | n + 1, bs =>
    if F.Starts bs then
      bs.take (F.lengthOf bs) :: chunksFrom n (bs.drop (F.roundUp (F.lengthOf bs)))
    else []

def chunks (bs : Bytes) : List Bytes := F.chunksFrom bs.length bs

variable {F} {bs c rest : Bytes}

theorem le_roundUp (n : Nat) : n ≤ F.roundUp n := by
  have hpos := F.align_pos
  have hdiv := Nat.div_add_mod (n + (F.align - 1)) F.align
  have hmod := Nat.mod_lt (n + (F.align - 1)) hpos
  rw [roundUp, Nat.mul_comm]
  omega

theorem not_starts_of_length (h : bs.length ≤ 0) : ¬ F.Starts bs := by
  intro hstarts
  have hpos := F.header_pos
  have hheader := hstarts.1
  omega

/-- The walk has enough turns. -/
theorem chunksFrom_of_le {n m : Nat} (hn : bs.length ≤ n) (hm : bs.length ≤ m) :
    F.chunksFrom n bs = F.chunksFrom m bs := by
  induction n generalizing m bs with
  | zero =>
    cases m with
    | zero => rfl
    | succ m => rw [chunksFrom, chunksFrom, if_neg (not_starts_of_length hn)]
  | succ n ih =>
    cases m with
    | zero => rw [chunksFrom, chunksFrom, if_neg (not_starts_of_length hm)]
    | succ m =>
      rw [chunksFrom, chunksFrom]
      split
      · next hstarts =>
        have hpos := F.header_pos
        have hheader := hstarts.2.1
        have hround := F.le_roundUp (F.lengthOf bs)
        have hdrop : (bs.drop (F.roundUp (F.lengthOf bs))).length ≤ bs.length - 1 := by
          rw [List.length_drop]
          omega
        rw [ih (m := m) (by omega) (by omega)]
      · rfl

theorem chunks_of_starts (h : F.Starts bs) : F.chunks bs =
    bs.take (F.lengthOf bs) :: F.chunks (bs.drop (F.roundUp (F.lengthOf bs))) := by
  have hpos := F.header_pos
  have hround := F.le_roundUp (F.lengthOf bs)
  obtain ⟨n, hn⟩ : ∃ n, bs.length = n + 1 := ⟨bs.length - 1, by have := h.1; omega⟩
  rw [chunks, hn, chunksFrom, if_pos h, chunks]
  rw [chunksFrom_of_le (by rw [List.length_drop]; have := h.2.1; omega) le_rfl]

@[simp] theorem chunks_nil : F.chunks [] = [] := rfl

theorem lengthOf_append (h : F.header ≤ c.length) : F.lengthOf (c ++ rest) = F.lengthOf c := by
  rw [← F.lengthOf_take (c ++ rest), List.take_append_of_le_length h, F.lengthOf_take]

namespace Chunk

theorem starts (h : F.Chunk c) : F.Starts (c ++ rest) := by
  have hheader := h.header_le
  have hlength := h.lengthOf_eq
  rw [Starts, F.lengthOf_append hheader, List.length_append]
  omega

theorem starts_self (h : F.Chunk c) : F.Starts c := by
  have happend : F.Starts (c ++ []) := h.starts
  rwa [List.append_nil] at happend

/-- The last chunk needs no filling. -/
theorem chunks_self (h : F.Chunk c) : F.chunks c = [c] := by
  rw [chunks_of_starts h.starts_self, h.lengthOf_eq, List.take_length,
    List.drop_of_length_le (le_roundUp c.length), chunks_nil]

end Chunk

end ChunkFormat
