import WifiOffload.Kernel.Kernel
import WifiOffload.Common.Types
import WifiOffload.Library.Attempt

/-!
# Netlink exchanges

The four helpers that talk netlink (rules, routes, endpoints and their flush) share one shape:
open a socket, send a request, wait for the answer, and treat one `errno` as success because
the wanted state is already there. `exchange` is that shape; `NetlinkFault` says where the
environment breaks it.
-/

namespace WifiOffload

/-- A failure outside the kernel's decision about a request. -/
inductive NetlinkFault where
  /-- The socket cannot be opened, bound or written. -/
  | notSent
  /-- The kernel has handled the request and its answer cannot be read. -/
  | answerLost
  deriving DecidableEq, Repr

/-- Send a request and translate its answer. -/
def exchange (fault : Option NetlinkFault) (tolerated : Errno)
    (request : Kernel → Except Errno Kernel) : Attempt Kernel RoutingError := fun k =>
  match fault, request k with
  | none, .ok k' => ⟨k', none⟩
  | none, .error e => ⟨k, if e = tolerated then none else some .netlinkError⟩
  | some .answerLost, .ok k' => ⟨k', some .netlinkError⟩
  | some _, _ => ⟨k, some .netlinkError⟩

section

variable {fault : Option NetlinkFault} {tolerated : Errno}
  {request : Kernel → Except Errno Kernel} {k k' : Kernel}

theorem exchange_of_ok (h : request k = .ok k') :
    exchange none tolerated request k = ⟨k', none⟩ := by
  simp [exchange, h]

theorem exchange_of_tolerated (h : request k = .error tolerated) :
    exchange none tolerated request k = ⟨k, none⟩ := by
  simp [exchange, h]

theorem exchange_error_of_fault {f : NetlinkFault} :
    (exchange (some f) tolerated request k).error ≠ none := by
  unfold exchange
  split <;> simp_all

/-- An exchange that succeeds has met no fault. -/
theorem exchange_of_success (h : (exchange fault tolerated request k).error = none) :
    exchange fault tolerated request k = exchange none tolerated request k := by
  cases fault with
  | none => rfl
  | some f => exact absurd h exchange_error_of_fault

/-- An exchange leaves the kernel as it was or as the request made it. -/
theorem exchange_state_cases :
    (exchange fault tolerated request k).state = k ∨
      request k = .ok (exchange fault tolerated request k).state := by
  unfold exchange
  split <;> simp_all

end

end WifiOffload
