import Mathlib

/-!
# Descriptor tables

The descriptors of a process: numbers that a close frees and that a later open may take again.
Every open file is a new one, so that a number that was taken again is told from what it stood
for before. An `epoll` instance watches some of the connections; a close ends that too.
-/

inductive OpenFile where
  | connection (id : Nat)
  | other (id : Nat)
  deriving DecidableEq, Repr

structure FdTable where
  files : Nat → Option OpenFile := fun _ => none
  /-- The watched numbers with the connections they were added for. -/
  watch : List (Nat × Nat) := []
  nextId : Nat := 0

namespace FdTable

/-- The number stands for the connection. -/
def Names (d : FdTable) (fd id : Nat) : Prop := d.files fd = some (.connection id)

instance (d : FdTable) (fd id : Nat) : Decidable (d.Names fd id) :=
  inferInstanceAs (Decidable (d.files fd = some (.connection id)))

/-- `EPOLL_CTL_DEL`: what the number stands for is not watched any more. -/
def unwatch (d : FdTable) (fd : Nat) : FdTable :=
  { d with watch := d.watch.filter fun p => ¬ (p.1 = fd ∧ d.Names fd p.2) }

def close (d : FdTable) (fd : Nat) : FdTable :=
  { d.unwatch fd with files := Function.update d.files fd none }

/-- A new connection gets a free number. -/
def accept (d : FdTable) (fd : Nat) (watched : Bool) : FdTable where
  files := Function.update d.files fd (some (.connection d.nextId))
  watch := if watched then d.watch ++ [(fd, d.nextId)] else d.watch
  nextId := d.nextId + 1

/-- Another file gets a free number. -/
def openOther (d : FdTable) (fd : Nat) : FdTable :=
  { d with
    files := Function.update d.files fd (some (.other d.nextId))
    nextId := d.nextId + 1 }

variable {d : FdTable} {fd x id : Nat} {watched : Bool}

/-! ### Other numbers -/

theorem names_close : (d.close x).Names fd id ↔ fd ≠ x ∧ d.Names fd id := by
  by_cases h : fd = x
  · simp [Names, close, h]
  · simp [Names, close, h, unwatch]

theorem names_accept : (d.accept x watched).Names fd id ↔
    (fd = x ∧ id = d.nextId) ∨ (fd ≠ x ∧ d.Names fd id) := by
  by_cases h : fd = x
  · simp [Names, accept, h, eq_comm]
  · simp [Names, accept, h]

theorem names_openOther : (d.openOther x).Names fd id ↔ fd ≠ x ∧ d.Names fd id := by
  by_cases h : fd = x
  · simp [Names, openOther, h]
  · simp [Names, openOther, h]

theorem Names.ne_of_free (h : d.Names fd id) (hfree : d.files x = none) : fd ≠ x := by
  rintro rfl
  rw [Names, hfree] at h
  cases h

/-! ### What the operations keep -/

/-- Watched numbers stand for the connections they were added for, an open connection has one
number and was not closed, and none was closed twice. -/
structure Sound (d : FdTable) (closed : List Nat) : Prop where
  watched : ∀ p ∈ d.watch, d.Names p.1 p.2
  lt : ∀ fd id, d.Names fd id → id < d.nextId
  one_number : ∀ fd fd' id, d.Names fd id → d.Names fd' id → fd = fd'
  not_closed : ∀ fd id, d.Names fd id → id ∉ closed
  closed_lt : ∀ id ∈ closed, id < d.nextId
  closed_nodup : closed.Nodup

namespace Sound

variable {closed : List Nat}

theorem empty : Sound {} [] where
  watched p hp := by cases hp
  lt fd id h := by cases h
  one_number fd fd' id h := by cases h
  not_closed fd id h := by cases h
  closed_lt id h := by cases h
  closed_nodup := List.nodup_nil

theorem unwatch (h : d.Sound closed) : (d.unwatch x).Sound closed where
  watched p hp := h.watched p (List.mem_of_mem_filter hp)
  lt := h.lt
  one_number := h.one_number
  not_closed := h.not_closed
  closed_lt := h.closed_lt
  closed_nodup := h.closed_nodup

theorem openOther (h : d.Sound closed) (hfree : d.files x = none) :
    (d.openOther x).Sound closed where
  watched p hp := names_openOther.mpr ⟨(h.watched p hp).ne_of_free hfree, h.watched p hp⟩
  lt fd id hid := Nat.lt_succ_of_lt (h.lt fd id (names_openOther.mp hid).2)
  one_number fd fd' id hid hid' :=
    h.one_number fd fd' id (names_openOther.mp hid).2 (names_openOther.mp hid').2
  not_closed fd id hid := h.not_closed fd id (names_openOther.mp hid).2
  closed_lt id hid := Nat.lt_succ_of_lt (h.closed_lt id hid)
  closed_nodup := h.closed_nodup

theorem accept (h : d.Sound closed) (hfree : d.files x = none) :
    (d.accept x watched).Sound closed where
  watched p hp := by
    have hp' : p ∈ d.watch ∨ p = (x, d.nextId) := by
      simp only [FdTable.accept] at hp
      split at hp
      · simpa using hp
      · exact .inl hp
    rcases hp' with hp' | rfl
    · exact names_accept.mpr (.inr ⟨(h.watched p hp').ne_of_free hfree, h.watched p hp'⟩)
    · exact names_accept.mpr (.inl ⟨rfl, rfl⟩)
  lt fd id hid := by
    rcases names_accept.mp hid with ⟨-, rfl⟩ | ⟨-, hid⟩
    · exact Nat.lt_succ_self _
    · exact Nat.lt_succ_of_lt (h.lt fd id hid)
  one_number fd fd' id hid hid' := by
    rcases names_accept.mp hid with ⟨rfl, hnew⟩ | ⟨-, hold⟩ <;>
      rcases names_accept.mp hid' with ⟨rfl, hnew'⟩ | ⟨-, hold'⟩
    · rfl
    · have hlt := h.lt fd' id hold'
      omega
    · have hlt := h.lt fd id hold
      omega
    · exact h.one_number fd fd' id hold hold'
  not_closed fd id hid := by
    rcases names_accept.mp hid with ⟨-, rfl⟩ | ⟨-, hid⟩
    · exact fun hmem => absurd (h.closed_lt _ hmem) (lt_irrefl _)
    · exact h.not_closed fd id hid
  closed_lt id hid := Nat.lt_succ_of_lt (h.closed_lt id hid)
  closed_nodup := h.closed_nodup

/-- A watched number that is left was not the closed one. -/
theorem watched_close (h : d.Sound closed) {p : Nat × Nat} (hp : p ∈ (d.close x).watch) :
    (d.close x).Names p.1 p.2 := by
  simp only [FdTable.close, FdTable.unwatch, List.mem_filter, decide_eq_true_eq] at hp
  obtain ⟨hp, hnot⟩ := hp
  have hnames := h.watched p hp
  refine names_close.mpr ⟨?_, hnames⟩
  rintro rfl
  exact hnot ⟨rfl, hnames⟩

/-- A number that stands for no connection is closed. -/
theorem closeOther (h : d.Sound closed) : (d.close x).Sound closed where
  watched _ hp := h.watched_close hp
  lt fd id hid := h.lt fd id (names_close.mp hid).2
  one_number fd fd' id hid hid' :=
    h.one_number fd fd' id (names_close.mp hid).2 (names_close.mp hid').2
  not_closed fd id hid := h.not_closed fd id (names_close.mp hid).2
  closed_lt := h.closed_lt
  closed_nodup := h.closed_nodup

/-- A connection is closed. -/
theorem close (h : d.Sound closed) (hnames : d.Names x id) :
    (d.close x).Sound (closed ++ [id]) where
  watched _ hp := h.watched_close hp
  lt fd id hid := h.lt fd id (names_close.mp hid).2
  one_number fd fd' id hid hid' :=
    h.one_number fd fd' id (names_close.mp hid).2 (names_close.mp hid').2
  not_closed fd id' hid := by
    obtain ⟨hne, hid⟩ := names_close.mp hid
    rw [List.mem_append, List.mem_singleton]
    rintro (hmem | rfl)
    · exact h.not_closed fd id' hid hmem
    · exact hne (h.one_number fd x id' hid hnames)
  closed_lt id' hid := by
    rcases List.mem_append.mp hid with hid | hid
    · exact h.closed_lt id' hid
    · rw [List.mem_singleton.mp hid]
      exact h.lt x id hnames
  closed_nodup := by
    rw [← List.concat_eq_append]
    exact List.Nodup.concat (h.not_closed x id hnames) h.closed_nodup

end Sound
end FdTable
