import WifiOffload.Library.Bytes

/-!
# A byte stream that arrives in pieces

One direction of a connected stream socket: `inFlight` has been written and not yet delivered,
`ready` has been delivered and not yet received. A receive on a non-blocking socket returns
between one byte and the requested number of the bytes that are ready, and fails when there are
none. Neither a delivery nor a receive changes the stream as a whole.
-/

structure ByteStream where
  inFlight : Bytes
  ready : Bytes := []
  deriving DecidableEq

namespace ByteStream

/-- What is still to be received, in order. -/
def rest (c : ByteStream) : Bytes := c.ready ++ c.inFlight

/-- The next `n` bytes arrive. -/
def deliver (c : ByteStream) (n : Nat) : ByteStream :=
  { inFlight := c.inFlight.drop n, ready := c.ready ++ c.inFlight.take n }

/-- How many bytes a receive returns that asks for `rem` where the system would return `granted`. -/
def received (c : ByteStream) (granted rem : Nat) : Nat :=
  max 1 (min granted (min rem c.ready.length))

/-- A non-blocking receive of at most `rem` bytes. -/
def recv (c : ByteStream) (granted rem : Nat) : Option (Bytes × ByteStream) :=
  if c.ready = [] then none
  else some (c.ready.take (c.received granted rem),
    { c with ready := c.ready.drop (c.received granted rem) })

variable {c c' : ByteStream} {granted rem : Nat} {bs : Bytes}

@[simp] theorem rest_deliver (n : Nat) : (c.deliver n).rest = c.rest := by
  simp [rest, deliver]

theorem recv_of_ready (h : c.ready ≠ []) :
    c.recv granted rem = some (c.ready.take (c.received granted rem),
      { c with ready := c.ready.drop (c.received granted rem) }) := if_neg h

theorem recv_eq_none_iff : c.recv granted rem = none ↔ c.ready = [] := by
  constructor
  · intro h
    by_contra hready
    rw [recv_of_ready hready] at h
    cases h
  · exact fun h => if_pos h

theorem ready_of_recv (h : c.recv granted rem = some (bs, c')) : c.ready ≠ [] := by
  intro hready
  rw [recv_eq_none_iff.mpr hready] at h
  cases h

/-- A receive takes at least one byte, and no more than was asked for. -/
theorem length_recv (hrem : 0 < rem) (h : c.recv granted rem = some (bs, c')) :
    0 < bs.length ∧ bs.length ≤ rem := by
  have hready := ready_of_recv h
  rw [recv_of_ready hready, Option.some.injEq, Prod.mk.injEq] at h
  have hpos : 0 < c.ready.length := List.length_pos_iff.mpr hready
  rw [← h.1, List.length_take, received]
  omega

/-- What is received is the front of the stream. -/
theorem append_rest_of_recv (h : c.recv granted rem = some (bs, c')) : bs ++ c'.rest = c.rest := by
  rw [recv_of_ready (ready_of_recv h), Option.some.injEq, Prod.mk.injEq] at h
  obtain ⟨rfl, rfl⟩ := h
  rw [rest, rest, ← List.append_assoc, List.take_append_drop]

end ByteStream
