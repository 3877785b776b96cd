import WifiOffload.Api.Registry
import WifiOffload.Library.ByteStream
import WifiOffload.Library.StateMachine

/-!
# Framing of requests

`recvMsg` and `handleClient` over a connection whose bytes arrive in any pieces. The loop of
`recvMsg` asks for the rest of a message until it is complete, but the sockets that
`handleAccept` makes are non-blocking: where the rest has not arrived yet the receive fails, and
`handleClient` takes any failure for the end of the connection.
-/

namespace WifiOffload

/-- What the system does around one `recv` of the loop: the bytes that arrive before it, and how
many of the ready ones it returns. -/
structure RecvTurn where
  arrived : Nat
  granted : Nat

/-- The loop of `recvMsg` from its `i`-th turn on, with the bytes got so far. A turn gets at least
one byte, so `fuel` beyond the number of missing bytes is enough. -/
def recvLoop (turns : Nat → RecvTurn) : Nat → Nat → Bytes → ByteStream → Option Bytes × ByteStream
  | 0, _, _, c => (none, c)
  | fuel + 1, i, got, c =>
    if ApiMsg.size ≤ got.length then (some got, c)
    else
      match (c.deliver (turns i).arrived).recv (turns i).granted (ApiMsg.size - got.length) with
      | none => (none, c.deliver (turns i).arrived)
      | some (bs, c) => recvLoop turns fuel (i + 1) (got ++ bs) c

def recvMsg (turns : Nat → RecvTurn) (c : ByteStream) : Option ApiMsg × ByteStream :=
  let r := recvLoop turns (ApiMsg.size + 1) 0 [] c
  (r.1.map ApiMsg.decode, r.2)

/-- The server, one of its connections, and the requests dispatched from it. -/
structure Connection where
  server : ConsumerApiServer
  fd : Nat
  socket : ByteStream
  dispatched : List ApiMsg := []

namespace Connection

/-- `handleClient`: a message that was read is dispatched, and a failed read removes the client. -/
def handleClient (t : Connection) (turns : Nat → RecvTurn) : Connection :=
  match recvMsg turns t.socket with
  | (some msg, socket) => { t with
      server := (t.server.handle t.fd msg).1, socket, dispatched := t.dispatched ++ [msg] }
  | (none, socket) => { t with server := (t.server.removeClient t.fd).1, socket }

inductive Event where
  /-- Bytes arrive outside a call of `handleClient`. -/
  | deliver (n : Nat)
  /-- `epoll_wait` reports the connection readable. -/
  | readable (turns : Nat → RecvTurn)

/-- A connection is reported readable while it is watched and bytes are ready. -/
def step (t : Connection) : Event → Connection
  | .deliver n => { t with socket := t.socket.deliver n }
  | .readable turns =>
    if t.fd ∈ t.server.clients ∧ t.socket.ready ≠ [] then t.handleClient turns else t

/-- A client that has connected and writes the requests. -/
def accepted (s : ConsumerApiServer) (fd : Nat) (msgs : List ApiMsg) : Connection :=
  { server := s.handleAccept fd, fd, socket := { inFlight := msgs.flatMap ApiMsg.encode } }

/-- The client is still connected, the requests dispatched so far are the first ones it wrote, and
all of them once nothing is left to receive. -/
structure Framed (msgs : List ApiMsg) (t : Connection) : Prop where
  connected : t.fd ∈ t.server.clients
  dispatched : t.dispatched <+: msgs
  complete : t.socket.rest = [] → t.dispatched = msgs

/-- At each `recv` of the loop that still misses `rem` bytes, one more byte has arrived. -/
def InTime (turns : Nat → RecvTurn) : Nat → Nat → Nat → ByteStream → Prop
  | 0, _, _, _ => True
  | fuel + 1, i, rem, c => rem = 0 ∨ (c.deliver (turns i).arrived).ready ≠ [] ∧
    ∀ bs c', (c.deliver (turns i).arrived).recv (turns i).granted rem = some (bs, c') →
      InTime turns fuel (i + 1) (rem - bs.length) c'

/-- Each `recv` that is made for a message finds a byte of it. -/
def ArrivesInTime (t : Connection) : Event → Prop
  | .deliver _ => True
  | .readable turns => t.fd ∈ t.server.clients → t.socket.ready ≠ [] →
    InTime turns (ApiMsg.size + 1) 0 ApiMsg.size t.socket

end Connection

/-! ## The loop -/

namespace Connection

variable {turns : Nat → RecvTurn}

/-- A turn that gets bytes leaves the turns behind it to be in time. -/
theorem inTime_of_recv {fuel i rem : Nat} {c c' : ByteStream} {bs : Bytes} (hrem : 0 < rem)
    (hrecv : (c.deliver (turns i).arrived).recv (turns i).granted rem = some (bs, c')) :
    InTime turns (fuel + 1) i rem c ↔ InTime turns fuel (i + 1) (rem - bs.length) c' := by
  rw [InTime]
  constructor
  · rintro (h | ⟨-, h⟩)
    · omega
    · exact h bs c' hrecv
  · intro h
    refine .inr ⟨ByteStream.ready_of_recv hrecv, fun bs' c'' hrecv' => ?_⟩
    cases hrecv.symm.trans hrecv'
    exact h

/-- A turn that gets nothing is too early. -/
theorem not_inTime_of_recv {fuel i rem : Nat} {c : ByteStream} (hrem : 0 < rem)
    (hrecv : (c.deliver (turns i).arrived).recv (turns i).granted rem = none) :
    ¬ InTime turns (fuel + 1) i rem c := by
  rintro (h | ⟨hready, -⟩)
  · omega
  · exact hready (ByteStream.recv_eq_none_iff.mp hrecv)

/-- The loop ends with a whole message, the front of what was left, exactly when a byte is there
at every turn. -/
theorem recvLoop_spec (turns : Nat → RecvTurn) (fuel i : Nat) (got : Bytes) (c : ByteStream)
    (hgot : got.length ≤ ApiMsg.size) (hfuel : ApiMsg.size - got.length < fuel) :
    (InTime turns fuel i (ApiMsg.size - got.length) c → ∃ bs c',
      recvLoop turns fuel i got c = (some (got ++ bs), c') ∧
        (got ++ bs).length = ApiMsg.size ∧ bs ++ c'.rest = c.rest) ∧
    (¬ InTime turns fuel i (ApiMsg.size - got.length) c →
      (recvLoop turns fuel i got c).1 = none) := by
  induction fuel generalizing i got c with
  | zero => omega
  | succ fuel ih =>
    unfold recvLoop
    by_cases hdone : ApiMsg.size ≤ got.length
    · have hsize : got.length = ApiMsg.size := Nat.le_antisymm hgot hdone
      have hintime : InTime turns (fuel + 1) i (ApiMsg.size - got.length) c := .inl (by omega)
      rw [if_pos hdone]
      exact ⟨fun _ => ⟨[], c, by simp, by simpa using hsize, rfl⟩, fun h => absurd hintime h⟩
    have hrem : 0 < ApiMsg.size - got.length := by omega
    rw [if_neg hdone]
    cases hrecv : (c.deliver (turns i).arrived).recv (turns i).granted
        (ApiMsg.size - got.length) with
    | none => exact ⟨fun h => absurd h (not_inTime_of_recv hrem hrecv), fun _ => rfl⟩
    | some r =>
      obtain ⟨bs, c'⟩ := r
      obtain ⟨hpos, hle⟩ := ByteStream.length_recv hrem hrecv
      have hlen : (got ++ bs).length = got.length + bs.length := List.length_append
      have hmissing : ApiMsg.size - (got ++ bs).length = ApiMsg.size - got.length - bs.length := by
        omega
      have hfront := ByteStream.append_rest_of_recv hrecv
      rw [ByteStream.rest_deliver] at hfront
      obtain ⟨hsuf, hnec⟩ := ih (i + 1) (got ++ bs) c' (by omega) (by omega)
      rw [hmissing] at hsuf hnec
      rw [inTime_of_recv hrem hrecv]
      refine ⟨fun h => ?_, hnec⟩
      obtain ⟨bs', c'', hloop, hsize, hrest⟩ := hsuf h
      refine ⟨bs ++ bs', c'', by simp only [hloop, List.append_assoc], ?_, ?_⟩
      · rw [← List.append_assoc]
        exact hsize
      · rw [List.append_assoc, hrest, hfront]

/-- `recvMsg` reads the next message of the stream, or fails where a byte comes too late. -/
theorem recvMsg_spec (turns : Nat → RecvTurn) {c : ByteStream} {msg : ApiMsg} {later : Bytes}
    (hrest : c.rest = msg.encode ++ later) :
    (InTime turns (ApiMsg.size + 1) 0 ApiMsg.size c →
      ∃ c', recvMsg turns c = (some msg, c') ∧ c'.rest = later) ∧
    (¬ InTime turns (ApiMsg.size + 1) 0 ApiMsg.size c → (recvMsg turns c).1 = none) := by
  obtain ⟨hsuf, hnec⟩ := recvLoop_spec turns (ApiMsg.size + 1) 0 [] c (by simp) (by simp)
  simp only [List.length_nil, Nat.sub_zero, List.nil_append] at hsuf hnec
  refine ⟨fun h => ?_, fun h => ?_⟩
  · obtain ⟨bs, c', hloop, hsize, hfront⟩ := hsuf h
    rw [hrest] at hfront
    obtain ⟨rfl, rfl⟩ := List.append_inj hfront (by rw [hsize, ApiMsg.length_encode])
    refine ⟨c', ?_, rfl⟩
    rw [recvMsg, hloop, Option.map_some, ApiMsg.decode_encode]
  · rw [recvMsg, hnec h, Option.map_none]

/-! ## Whole runs -/

variable {msgs : List ApiMsg} {t : Connection}

/-- The invariant of the runs in which every byte comes in time: the rest of the stream is that
of the requests not yet dispatched. -/
structure InSync (msgs : List ApiMsg) (t : Connection) : Prop where
  clients : t.server.clients = [t.fd]
  stream : ∃ left, msgs = t.dispatched ++ left ∧ t.socket.rest = left.flatMap ApiMsg.encode

theorem InSync.framed (h : InSync msgs t) : Framed msgs t where
  connected := by
    rw [h.clients]
    exact List.mem_singleton.mpr rfl
  dispatched := by
    obtain ⟨left, hmsgs, -⟩ := h.stream
    exact ⟨left, hmsgs.symm⟩
  complete hnone := by
    obtain ⟨left, hmsgs, hrest⟩ := h.stream
    rw [hnone] at hrest
    cases left with
    | nil => rw [hmsgs, List.append_nil]
    | cons msg left =>
      have hlen := congrArg List.length hrest
      simp [ApiMsg.size] at hlen
      omega

/-- One call of `handleClient` dispatches the next request, or the client is gone. -/
theorem InSync.handleClient (h : InSync msgs t) (hready : t.socket.ready ≠ [])
    (turns : Nat → RecvTurn) :
    (InTime turns (ApiMsg.size + 1) 0 ApiMsg.size t.socket → InSync msgs (t.handleClient turns)) ∧
    (¬ InTime turns (ApiMsg.size + 1) 0 ApiMsg.size t.socket →
      (t.handleClient turns).fd ∉ (t.handleClient turns).server.clients) := by
  obtain ⟨left, hmsgs, hrest⟩ := h.stream
  cases left with
  | nil =>
    -- ready bytes are bytes of a request
    have hnil : t.socket.ready = [] := (List.append_eq_nil_iff.mp hrest).1
    exact absurd hnil hready
  | cons msg left =>
    obtain ⟨hsuf, hnec⟩ := recvMsg_spec turns (hrest.trans List.flatMap_cons)
    unfold Connection.handleClient
    constructor
    · intro hin
      obtain ⟨c', hrecv, hlater⟩ := hsuf hin
      rw [hrecv]
      refine ⟨?_, left, ?_, hlater⟩
      · rw [ConsumerApiServer.clients_handle]
        exact h.clients
      · rw [hmsgs, List.append_assoc]
        rfl
    · intro hlate
      have hfail := hnec hlate
      rcases hr : recvMsg turns t.socket with ⟨_ | msg', c'⟩
      · simp [ConsumerApiServer.clients_removeClient, h.clients]
      · rw [hr] at hfail
        cases hfail

theorem accepted_inSync (s : ConsumerApiServer) (hs : s.clients = []) (fd : Nat)
    (msgs : List ApiMsg) : InSync msgs (accepted s fd msgs) := by
  refine ⟨?_, msgs, rfl, rfl⟩
  simp [accepted, ConsumerApiServer.handleAccept, hs]

/-- The requests of a client are dispatched as it wrote them, and it stays connected, exactly when
at every `recv` that is made for a message one more byte of it has arrived. -/
theorem framed_throughout_iff (classes : List PathClassConfig) (fd : Nat) (msgs : List ApiMsg)
    (events : List Event) :
    StateMachine.Throughout step (Framed msgs)
        (accepted (.ofClasses classes) fd msgs) events ↔
      StateMachine.StepsMeet step ArrivesInTime (accepted (.ofClasses classes) fd msgs) events := by
  apply StateMachine.throughout_iff_stepsMeet_of_invariant (I := fun _ => True)
    (J := InSync msgs) (fun _ _ _ => trivial) (fun _ h => h.framed)
  · intro t e _ hJ hnext
    cases e with
    | deliver n => trivial
    | readable turns =>
      intro hfd hready
      by_contra hlate
      have hconnected := hnext.connected
      rw [step, if_pos ⟨hfd, hready⟩] at hconnected
      exact (hJ.handleClient hready turns).2 hlate hconnected
  · intro t e _ hJ hC
    cases e with
    | deliver n =>
      obtain ⟨left, hmsgs, hrest⟩ := hJ.stream
      exact ⟨hJ.clients, left, hmsgs, (ByteStream.rest_deliver n).trans hrest⟩
    | readable turns =>
      rw [step]
      split
      · next h => exact (hJ.handleClient h.2 turns).1 (hC h.1 h.2)
      · exact hJ
  · trivial
  · exact accepted_inSync _ rfl fd msgs

/-- A request whose first byte arrives alone costs the client its connection. -/
theorem split_request_disconnects :
    ¬ ∀ (classes : List PathClassConfig) (fd : Nat) (msgs : List ApiMsg) (events : List Event),
        StateMachine.Throughout step (Framed msgs) (accepted (.ofClasses classes) fd msgs)
          events := by
  intro h
  have hrun := h [] 7 [{ type := MsgType.queryCurrent.code }]
    [.deliver 1, .readable fun _ => ⟨0, ApiMsg.size⟩, .deliver 95]
  exact absurd hrun.last.connected (by decide)

end Connection
end WifiOffload
