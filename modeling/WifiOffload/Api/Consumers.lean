import WifiOffload.Api.Confinement
import WifiOffload.Api.Streams
import WifiOffload.Library.Potential

/-!
# The consumers of the repository

`tests/mock_consumer.cpp` and the control connection of `tests/fota_consumer.cpp` against the
server: any number of consumers that register, read path events, unregister and close, while the
API thread is anywhere between the push of an entry and its `RegisterAck` and the FSM threads
broadcast. A consumer takes the handle from the first 96 bytes it reads, whatever these are, and
the server does not check whose handle an `Unregister` has.
-/

namespace WifiOffload

open StateMachine

inductive ConsumerKind where
  | mock (maxEvents : Nat)
  | fota
  deriving DecidableEq, Repr

/-- Where a consumer is, each in front of the statement of its name. -/
inductive ConsumerPoint where
  | register | awaitAck
  | receiving (handle : UInt64) (received : Nat)
  | unregister (handle : UInt64)
  | awaitUnregisterAck | closed
  deriving DecidableEq

/-- How `sendMsg` or `recvMsg` of a consumer turns out; when `recvMsg` fails, it may have taken a
part of a message. -/
inductive PeerCall where
  | returns
  | fails (taken : Nat)
  deriving DecidableEq

/-- A consumer and its connection, with the messages that the server has not read yet and the bytes
that the consumer has not read yet. What a consumer has sent in part is the last thing it sends, and
the server never gets a message out of it. -/
structure Peer where
  kind : ConsumerKind
  pid : Int32
  classId : Bytes
  point : ConsumerPoint := .register
  toServer : List ApiMsg := []
  inbox : Bytes := []
  deriving DecidableEq

namespace Peer

/-- `recvMsg` of a consumer, which waits for the whole of a message. -/
def recvMsg (inbox : Bytes) : Option (ApiMsg × Bytes) :=
  if inbox.length < ApiMsg.size then none
  else some (ApiMsg.decode (inbox.take ApiMsg.size), inbox.drop ApiMsg.size)

/-- The next statement. -/
def step (c : Peer) (call : PeerCall) : Peer :=
  match c.point with
  | .register =>
    match call with
    | .returns =>
      let reg : ApiMsg := { type := MsgType.register.code, pid := c.pid
                            classId := CharArray.strncpy 32 c.classId }
      { c with toServer := c.toServer ++ [reg], point := .awaitAck }
    | .fails _ => { c with point := .closed }
  | .awaitAck =>
    match call, recvMsg c.inbox with
    | .returns, some (ack, inbox) =>
      { c with inbox, point := if ack.error = 0 then .receiving ack.handle 0 else .closed }
    | .returns, none => c
    | .fails _, _ => { c with point := .closed }
  | .receiving handle received =>
    match c.kind with
    | .fota =>
      match call, recvMsg c.inbox with
      | .returns, some (_, inbox) => { c with inbox }
      | .returns, none => c
      -- the connection does not block: what has come of a message is lost, and the download goes on
      | .fails taken, _ => { c with inbox := c.inbox.drop (min taken (ApiMsg.size - 1)) }
    | .mock maxEvents =>
      if received < maxEvents then
        match call, recvMsg c.inbox with
        | .returns, some (event, inbox) =>
          let counted := if event.type = MsgType.pathEvent.code then received + 1 else received
          { c with inbox, point := .receiving handle counted }
        | .returns, none => c
        | .fails taken, _ =>
          { c with
            inbox := c.inbox.drop (min taken (ApiMsg.size - 1))
            point := .unregister handle }
      else { c with point := .unregister handle }
  | .unregister handle =>
    { c with
      toServer := if call = .returns then c.toServer ++ [unregisterMsg handle] else c.toServer
      point := if c.kind = .fota then .closed else .awaitUnregisterAck }
  | .awaitUnregisterAck =>
    match call, recvMsg c.inbox with
    | .returns, none => c
    | _, _ => { c with point := .closed }
  | .closed => c

/-- The download of a `fota` consumer is over, or has failed. -/
def downloadDone (c : Peer) : Peer :=
  match c.kind, c.point with
  | .fota, .receiving handle _ => { c with point := .unregister handle }
  | _, _ => c

end Peer

/-! ## Whole messages -/

/-- Bytes that are messages, each of them whole and with a handle that `P` holds of. -/
abbrev WholeMessages (P : UInt64 → Prop) : Bytes → Prop :=
  Frames.Whole ApiMsg.encode fun msg => P msg.handle

section

variable {P : UInt64 → Prop}

/-- What a consumer reads is the first of them. -/
theorem WholeMessages.recvMsg {bytes rest : Bytes} {msg : ApiMsg} (h : WholeMessages P bytes)
    (hrecv : Peer.recvMsg bytes = some (msg, rest)) : P msg.handle ∧ WholeMessages P rest := by
  unfold Peer.recvMsg at hrecv
  split at hrecv
  · cases hrecv
  · next hlen =>
    obtain ⟨first, hfirst, htake, hdrop⟩ :=
      h.split ApiMsg.length_encode (by decide) (Nat.le_of_not_lt hlen)
    rw [htake, ApiMsg.decode_encode, Option.some.injEq, Prod.mk.injEq] at hrecv
    obtain ⟨rfl, rfl⟩ := hrecv
    exact ⟨hfirst, hdrop⟩

/-- Replies that the kernel takes all of. -/
theorem wholeMessages_sendMsg {results : Nat → Int} (htaken : TakesAll results ApiMsg.size)
    {msgs : List ApiMsg} (hmsgs : ∀ msg ∈ msgs, P msg.handle) :
    WholeMessages P (msgs.flatMap (sendMsg results)) := by
  have hsent : msgs.flatMap (sendMsg results) = msgs.flatMap ApiMsg.encode :=
    List.flatMap_congr fun msg _ => sendMsg_eq_encode_iff.mpr htaken
  rw [hsent]
  exact .frames hmsgs

end

namespace Peer

/-- The handles that a consumer has or will read, and those it has sent, are such that `P` holds of
them. Behind the answer to its `Register` it looks at no other handle. -/
structure Holds (P : UInt64 → Prop) (c : Peer) : Prop where
  toServer : ∀ msg ∈ c.toServer, P msg.handle
  point : match c.point with
    | .register | .awaitAck => WholeMessages P c.inbox
    | .receiving handle _ | .unregister handle => P handle
    | .awaitUnregisterAck | .closed => True

namespace Holds

variable {P Q : UInt64 → Prop} {c : Peer}

theorem mono (h : c.Holds P) (hPQ : ∀ handle, P handle → Q handle) : c.Holds Q where
  toServer msg hmsg := hPQ _ (h.toServer msg hmsg)
  point := by
    have hpoint := h.point
    split at hpoint
    · exact hpoint.mono fun _ => hPQ _
    · exact hpoint.mono fun _ => hPQ _
    · exact hPQ _ hpoint
    · exact hPQ _ hpoint
    · trivial
    · trivial

theorem deliver (h : c.Holds P) {bytes : Bytes} (hbytes : WholeMessages P bytes) :
    ({ c with inbox := c.inbox ++ bytes } : Peer).Holds P where
  toServer := h.toServer
  point := by
    have hpoint := h.point
    dsimp only
    split at hpoint
    · exact hpoint.append hbytes
    · exact hpoint.append hbytes
    · exact hpoint
    · exact hpoint
    · trivial
    · trivial

/-- The server takes the first message of a consumer. -/
theorem request (h : c.Holds P) {msg : ApiMsg} {toServer : List ApiMsg}
    (hto : c.toServer = msg :: toServer) :
    P msg.handle ∧ ({ c with toServer } : Peer).Holds P := by
  have hall := h.toServer
  rw [hto, List.forall_mem_cons] at hall
  exact ⟨hall.1, hall.2, h.point⟩

/-- A consumer makes up no handle but 0. -/
theorem step (h : c.Holds P) (hzero : P 0) (call : PeerCall) : (c.step call).Holds P := by
  obtain ⟨hto, hpoint⟩ := h
  cases hc : c.point with
  | register =>
    rw [hc] at hpoint
    cases call with
    | returns =>
      simp only [Peer.step, hc]
      exact ⟨List.forall_mem_append.mpr ⟨hto, by simpa using hzero⟩, hpoint⟩
    | fails taken => simpa [Peer.step, hc] using ⟨hto, trivial⟩
  | awaitAck =>
    rw [hc] at hpoint
    simp only [Peer.step, hc]
    split
    · next ack inbox hrecv =>
      have hack := (hpoint.recvMsg hrecv).1
      by_cases herror : ack.error = 0
      · exact ⟨hto, by simpa [herror] using hack⟩
      · exact ⟨hto, by simp [herror]⟩
    · exact ⟨hto, by simpa [hc] using hpoint⟩
    · exact ⟨hto, trivial⟩
  | receiving handle received =>
    rw [hc] at hpoint
    simp only [Peer.step, hc]
    split
    · split <;> exact ⟨hto, by simpa [hc] using hpoint⟩
    · split
      · split
        · exact ⟨hto, hpoint⟩
        · exact ⟨hto, by simpa [hc] using hpoint⟩
        · exact ⟨hto, hpoint⟩
      · exact ⟨hto, hpoint⟩
  | unregister handle =>
    rw [hc] at hpoint
    simp only [Peer.step, hc]
    refine ⟨?_, by by_cases hkind : c.kind = .fota <;> simp [hkind]⟩
    cases call with
    | returns => exact List.forall_mem_append.mpr ⟨hto, by simpa [unregisterMsg] using hpoint⟩
    | fails taken => simpa using hto
  | awaitUnregisterAck =>
    simp only [Peer.step, hc]
    split
    · exact ⟨hto, by simp [hc]⟩
    · exact ⟨hto, trivial⟩
  | closed => simpa [Peer.step, hc] using ⟨hto, by simp [hc]⟩

theorem downloadDone (h : c.Holds P) : c.downloadDone.Holds P := by
  unfold Peer.downloadDone
  split
  · next handle _ _ hc =>
    have hpoint := h.point
    rw [hc] at hpoint
    exact ⟨h.toServer, hpoint⟩
  · exact h

end Holds
end Peer

/-- How far the API thread is with a registration. -/
inductive ApiPoint where
  | idle
  | pushed (fd : Nat) (handle : UInt64) (classId : Bytes)
  | sampled (fd : Nat) (ack : ApiMsg)
  deriving DecidableEq

structure ConsumerSystem where
  server : ConsumerApiServer
  peers : Nat → Option Peer := fun _ => none
  api : ApiPoint := .idle

def ApiPoint.handles : ApiPoint → List (Nat × UInt64)
  | .idle => []
  | .pushed fd handle _ => [(fd, handle)]
  | .sampled fd ack => [(fd, ack.handle)]

namespace ConsumerSystem

/-- `results` are those of the calls of `send` for a reply, or for each connection. -/
inductive Event where
  | connect (fd : Nat) (kind : ConsumerKind) (pid : Int32) (classId : Bytes)
  | consumer (fd : Nat) (call : PeerCall)
  | downloadDone (fd : Nat)
  /-- The API thread takes the next message of a connection. -/
  | receive (fd : Nat) (results : Nat → Int)
  | sample
  | reply (results : Nat → Int)
  /-- It removes a client: the connection is at its end, or a message came in parts. -/
  | hangUp (fd : Nat)
  | cache (classId : Bytes) (newState : PathState) (iface : Bytes) (rssiDbm : Int32)
  | deliver (classId : Bytes) (newState : PathState) (iface : Bytes) (rssiDbm : Int32)
      (results : Nat → Nat → Int)

def fresh (classes : List PathClassConfig) : ConsumerSystem := { server := .ofClasses classes }

variable (p : ConsumerSystem)

def setPeer (fd : Nat) (c : Option Peer) : ConsumerSystem :=
  { p with peers := Function.update p.peers fd c }

/-- The bytes reach a connection that is open. -/
def sendTo (fd : Nat) (bytes : Bytes) : ConsumerSystem :=
  p.setPeer fd ((p.peers fd).map fun c => { c with inbox := c.inbox ++ bytes })

/-- `handleClient` up to the lock of a registration, or to its end. -/
def receive (fd : Nat) (c : Peer) (msg : ApiMsg) (results : Nat → Int) : ConsumerSystem :=
  let classId := msg.classId.toString
  if msg.type = MsgType.register.code ∧ (p.server.findClass classId).isSome then
    { p.setPeer fd (some c) with
      server := p.server.pushEntry fd msg.pid classId
      api := .pushed fd p.server.nextHandle classId }
  else
    let handled := p.server.handle fd msg
    let taken := (Effect.messagesTo fd handled.2).flatMap (sendMsg results)
    { p.setPeer fd (some { c with inbox := c.inbox ++ taken }) with server := handled.1 }

def step : Event → ConsumerSystem
  | .connect fd kind pid classId =>
    if p.api = .idle ∧ p.peers fd = none then
      { p.setPeer fd (some { kind, pid, classId }) with server := p.server.handleAccept fd }
    else p
  | .consumer fd call => p.setPeer fd ((p.peers fd).map (·.step call))
  | .downloadDone fd => p.setPeer fd ((p.peers fd).map (·.downloadDone))
  | .receive fd results =>
    match p.api, p.peers fd with
    | .idle, some c =>
      match c.toServer with
      | msg :: toServer => p.receive fd { c with toServer } msg results
      | [] => p
    | _, _ => p
  | .sample =>
    match p.api with
    | .pushed fd handle classId =>
      { p with api := .sampled fd (p.server.registerAck handle classId) }
    | _ => p
  | .reply results =>
    match p.api with
    | .sampled fd ack => { p.sendTo fd (sendMsg results ack) with api := .idle }
    | _ => p
  | .hangUp fd =>
    match p.api, p.peers fd with
    | .idle, some _ => { p.setPeer fd none with server := (p.server.removeClient fd).1 }
    | _, _ => p
  | .cache classId newState iface rssiDbm =>
    { p with server := p.server.cachePathEvent classId newState iface rssiDbm }
  | .deliver classId newState iface rssiDbm results =>
    let msg := ConsumerApiServer.pathEvent classId newState iface rssiDbm
    let fds := (p.server.receivers classId).map (·.fd)
    let broken := fds.filter fun fd => !(trySendMsg (results fd) msg).2
    { p with
      server := (p.server.dropAllBroken broken).1
      peers := fun fd =>
        if fd ∈ broken then none
        else if fd ∈ fds then
          (p.peers fd).map fun c => { c with inbox := c.inbox ++ (trySendMsg (results fd) msg).1 }
        else p.peers fd }

/-- The `Unregister` messages on a connection end no registration of another one. -/
def Confined : Prop :=
  ∀ fd c, p.peers fd = some c → ∀ msg ∈ c.toServer, msg.type = MsgType.unregister.code →
    ∀ e ∈ p.server.registry, e.handle = msg.handle → e.fd = fd

/-- A message of the connection is read, or the connection is gone. -/
def Event.Of (fd : Nat) : Event → Prop
  | .receive fd' _ | .hangUp fd' => fd' = fd
  | .deliver classId newState iface rssiDbm results =>
    (trySendMsg (results fd) (ConsumerApiServer.pathEvent classId newState iface rssiDbm)).2 = false
  | .connect .. | .consumer .. | .downloadDone _ | .sample | .reply _ | .cache .. => False

/-- The kernel takes all of a reply. -/
def Event.ReplyTaken : Event → Prop
  | .receive _ results | .reply results => TakesAll results ApiMsg.size
  | .connect .. | .consumer .. | .downloadDone _ | .sample | .hangUp _ | .cache ..
  | .deliver .. => True

/-- Entries go in steps of their own connection only. -/
def KeepsOthers (e : Event) : Prop :=
  ∀ entry ∈ p.server.registry, entry ∈ (p.step e).server.registry ∨ e.Of entry.fd

/-- The entries that a step pushes. -/
def registrations : Event → Nat
  | .receive fd _ =>
    match p.api, p.peers fd with
    | .idle, some c =>
      match c.toServer with
      | msg :: _ =>
        if msg.type = MsgType.register.code ∧ (p.server.findClass msg.classId.toString).isSome
        then 1 else 0
      | [] => 0
    | _, _ => 0
  | _ => 0

/-! ## Handles -/

/-- The handle was issued, and no other connection has an entry with it. -/
def Harmless (s : ConsumerApiServer) (fd : Nat) (handle : UInt64) : Prop :=
  handle < s.nextHandle ∧ ∀ e ∈ s.registry, e.handle = handle → e.fd = fd

variable {p} {classes : List PathClassConfig} {n : Nat} {s t : ConsumerApiServer} {fd : Nat}
  {handle : UInt64}

open ConsumerApiServer (Counted Trimmed)

theorem Harmless.trimmed (h : Harmless s fd handle) (ht : Trimmed s t) : Harmless t fd handle :=
  ⟨ht.nextHandle ▸ h.1, fun e he => h.2 e (ht.registry.subset he)⟩

theorem harmless_zero (h : Counted classes n s) : Harmless s fd 0 := by
  refine ⟨?_, fun e he heq => ?_⟩
  · rw [UInt64.lt_iff_toNat_lt, h.nextHandle]
    simp
  · have hpos := (h.represented.handle_bounds e he).1
    rw [heq] at hpos
    exact absurd hpos (by decide)

/-- The next handle is no smaller after a registration. -/
theorem lt_pushEntry (h : Counted classes n s) (hn : n + 1 < 2 ^ 64 - 1) (x : Nat) (pid : Int32)
    (classId : Bytes) : s.nextHandle < (s.pushEntry x pid classId).nextHandle := by
  change s.nextHandle < s.nextHandle + 1
  rw [UInt64.lt_iff_toNat_lt, UInt64.toNat_add, h.nextHandle]
  simp
  omega

theorem Harmless.pushEntry (h : Harmless s fd handle) (hcounted : Counted classes n s)
    (hn : n + 1 < 2 ^ 64 - 1) (x : Nat) (pid : Int32) (classId : Bytes) :
    Harmless (s.pushEntry x pid classId) fd handle := by
  refine ⟨UInt64.lt_trans h.1 (lt_pushEntry hcounted hn x pid classId), fun e he heq => ?_⟩
  rcases List.mem_append.mp he with he | he
  · exact h.2 e (List.mem_of_mem_filter he) heq
  · -- the new handle was not issued before
    obtain rfl := List.mem_singleton.mp he
    obtain rfl : s.nextHandle = handle := heq
    exact absurd h.1 (UInt64.lt_irrefl _)

theorem harmless_pushEntry (h : Counted classes n s) (hn : n + 1 < 2 ^ 64 - 1) (fd : Nat)
    (pid : Int32) (classId : Bytes) :
    Harmless (s.pushEntry fd pid classId) fd s.nextHandle := by
  refine ⟨lt_pushEntry h hn fd pid classId, fun e he heq => ?_⟩
  rcases List.mem_append.mp he with he | he
  · have hbelow := (h.represented.handle_bounds e (List.mem_of_mem_filter he)).2
    rw [heq] at hbelow
    exact absurd hbelow (UInt64.lt_irrefl _)
  · rw [List.mem_singleton.mp he]

/-- What is answered without a registration has handle 0 or that of the request. -/
theorem handle_of_reply {msg reply : ApiMsg}
    (hnot : ¬ (msg.type = MsgType.register.code ∧ (s.findClass msg.classId.toString).isSome))
    (h : reply ∈ Effect.messagesTo fd (s.handle fd msg).2) :
    reply.handle = 0 ∨ reply.handle = msg.handle := by
  by_cases hreg : msg.type = MsgType.register.code
  · have hnone : s.findClass msg.classId.toString = none := by simpa [hreg] using hnot
    rw [ConsumerApiServer.handle, if_pos hreg,
      ConsumerApiServer.handleRegister_of_unknown fd hnone] at h
    simp_all
  by_cases hunreg : msg.type = MsgType.unregister.code
  · rw [ConsumerApiServer.handle, if_neg hreg, if_pos hunreg,
      ConsumerApiServer.handleUnregister] at h
    split at h
    · simp_all
    · simp only [Effect.messagesTo_append, ConsumerApiServer.messagesTo_dropEntry] at h
      simp_all
  · rw [ConsumerApiServer.handle, if_neg hreg, if_neg hunreg] at h
    split at h
    · simp only [ConsumerApiServer.handleQueryCurrent] at h
      split at h <;> simp_all
    · simp_all

theorem mem_dropAllBroken {entry : ConsumerEntry} {fds : List Nat} (hentry : entry ∈ s.registry)
    (hfds : entry.fd ∉ fds) : entry ∈ (s.dropAllBroken fds).1.registry := by
  induction fds generalizing s with
  | nil => exact hentry
  | cons x fds ih =>
    rw [List.mem_cons, not_or] at hfds
    rw [ConsumerApiServer.dropAllBroken_cons]
    refine ih ?_ hfds.2
    rw [ConsumerApiServer.dropBroken, ConsumerApiServer.closeClient,
      ConsumerApiServer.dropEntry_registry]
    exact (List.mem_eraseP_of_neg (by simpa using hfds.1)).mpr hentry

/-! ## Whole runs -/

/-- What every state has after `n` registrations: no handle in the system is another's. -/
structure Kept (classes : List PathClassConfig) (n : Nat) (p : ConsumerSystem) : Prop where
  counted : Counted classes n p.server
  connected : ∀ fd c, p.peers fd = some c → fd ∈ p.server.clients
  peers : ∀ fd c, p.peers fd = some c → c.Holds (Harmless p.server fd)
  api : ∀ q ∈ p.api.handles, Harmless p.server q.1 q.2

namespace Kept

theorem confined (h : Kept classes n p) : p.Confined := by
  intro fd c hc msg hmsg _ e he heq
  exact ((h.peers fd c hc).toServer msg hmsg).2 e he heq

/-- Entries go, and none of the connections that stay. -/
theorem trimmed (h : Kept classes n p) (ht : Trimmed p.server t)
    (hopen : ∀ fd c, p.peers fd = some c → fd ∈ t.clients) :
    Kept classes n { p with server := t } where
  counted := h.counted.trimmed ht
  connected := hopen
  peers fd c hc := (h.peers fd c hc).mono fun _ hhandle => hhandle.trimmed ht
  api q hq := (h.api q hq).trimmed ht

/-- A consumer of an open connection goes on. -/
theorem setPeer (h : Kept classes n p) {c : Peer} (hopen : fd ∈ p.server.clients)
    (hc : c.Holds (Harmless p.server fd)) :
    Kept classes n (p.setPeer fd (some c)) where
  counted := h.counted
  connected x c' hc' := by
    by_cases hx : x = fd
    · exact hx ▸ hopen
    · exact h.connected x c' (by simpa [ConsumerSystem.setPeer, hx] using hc')
  peers x c' hc' := by
    by_cases hx : x = fd
    · subst hx
      obtain rfl : c = c' := by simpa [ConsumerSystem.setPeer] using hc'
      exact hc
    · exact h.peers x c' (by simpa [ConsumerSystem.setPeer, hx] using hc')
  api := h.api

/-- Whatever a consumer does, if there is one on the connection. -/
theorem consumer (h : Kept classes n p) (fd : Nat) {next : Peer → Peer}
    (hnext : ∀ c : Peer, c.Holds (Harmless p.server fd) →
      (next c).Holds (Harmless p.server fd)) :
    Kept classes n (p.setPeer fd ((p.peers fd).map next)) := by
  cases hc : p.peers fd with
  | none =>
    have hsame : p.setPeer fd none = p := by simp [ConsumerSystem.setPeer, ← hc]
    simpa [hsame] using h
  | some c => exact h.setPeer (h.connected fd c hc) (hnext c (h.peers fd c hc))

theorem setApi (h : Kept classes n p) {api : ApiPoint}
    (hapi : ∀ q ∈ api.handles, Harmless p.server q.1 q.2) : Kept classes n { p with api } where
  counted := h.counted
  connected := h.connected
  peers := h.peers
  api := hapi

/-- Messages with harmless handles come to an open connection. -/
theorem sendTo (h : Kept classes n p) {bytes : Bytes}
    (hbytes : WholeMessages (Harmless p.server fd) bytes) : Kept classes n (p.sendTo fd bytes) :=
  h.consumer fd fun _ hc => hc.deliver hbytes

/-- The API thread pushes the entry of a connection. -/
theorem pushEntry (h : Kept classes n p) (hn : n + 1 < 2 ^ 64 - 1) {c : Peer} {classId : Bytes}
    (hopen : fd ∈ p.server.clients) (hid : classId ∈ p.server.classIds) (pid : Int32)
    (hc : c.Holds (Harmless p.server fd)) :
    Kept classes (n + 1)
      { p.setPeer fd (some c) with
        server := p.server.pushEntry fd pid classId
        api := .pushed fd p.server.nextHandle classId } where
  counted := h.counted.pushEntry hn hopen hid
  connected := (h.setPeer hopen hc).connected
  peers x c' hc' := ((h.setPeer hopen hc).peers x c' hc').mono fun _ hhandle =>
    hhandle.pushEntry h.counted hn fd pid classId
  api q hq := by
    obtain rfl := List.mem_singleton.mp hq
    exact harmless_pushEntry h.counted hn fd pid classId

/-- The API thread takes a message that came over an open connection. -/
theorem receive (h : Kept classes n p) {c : Peer} (hopen : fd ∈ p.server.clients)
    (hc : c.Holds (Harmless p.server fd)) {msg : ApiMsg}
    (hmsg : Harmless p.server fd msg.handle) {results : Nat → Int}
    (htaken : TakesAll results ApiMsg.size)
    (hn : n + 1 < 2 ^ 64 - 1 ∨
      ¬ (msg.type = MsgType.register.code ∧ (p.server.findClass msg.classId.toString).isSome)) :
    Kept classes
      (n + if msg.type = MsgType.register.code ∧ (p.server.findClass msg.classId.toString).isSome
        then 1 else 0) (p.receive fd c msg results) := by
  unfold ConsumerSystem.receive
  by_cases hreg : msg.type = MsgType.register.code ∧
      (p.server.findClass msg.classId.toString).isSome
  · rw [if_pos hreg, if_pos hreg]
    exact h.pushEntry (hn.resolve_right (not_not.mpr hreg)) hopen
      (ConsumerApiServer.findClass_isSome.mp hreg.2) msg.pid hc
  · rw [if_neg hreg, if_neg hreg]
    have htrimmed : Trimmed p.server (p.server.handle fd msg).1 := by
      rcases p.server.handle_cases fd msg with ⟨htype, hid, -⟩ | ⟨htrimmed, -⟩
      · exact absurd ⟨htype, ConsumerApiServer.findClass_isSome.mpr hid⟩ hreg
      · exact htrimmed
    have hreplies : ∀ reply ∈ Effect.messagesTo fd (p.server.handle fd msg).2,
        Harmless p.server fd reply.handle := by
      intro reply hreply
      rcases handle_of_reply hreg hreply with hzero | hsame
      · exact hzero ▸ harmless_zero h.counted
      · exact hsame ▸ hmsg
    have hsent := (h.setPeer hopen hc).sendTo (wholeMessages_sendMsg htaken hreplies)
    have hanswered := hsent.trimmed htrimmed fun x c' hc' => by
      rw [ConsumerApiServer.clients_handle]
      exact hsent.connected x c' hc'
    simpa [ConsumerSystem.sendTo, ConsumerSystem.setPeer] using hanswered

/-- A connection goes, with the entry it has. -/
theorem hangUp (h : Kept classes n p) (ht : Trimmed p.server t)
    (hclients : t.clients = p.server.clients.erase fd) :
    Kept classes n { p.setPeer fd none with server := t } where
  counted := h.counted.trimmed ht
  connected x c hc := by
    by_cases hx : x = fd
    · simp [ConsumerSystem.setPeer, hx] at hc
    · rw [hclients]
      exact (List.mem_erase_of_ne hx).mpr
        (h.connected x c (by simpa [ConsumerSystem.setPeer, hx] using hc))
  peers x c hc := by
    by_cases hx : x = fd
    · simp [ConsumerSystem.setPeer, hx] at hc
    · exact (h.peers x c (by simpa [ConsumerSystem.setPeer, hx] using hc)).mono
        fun _ hhandle => hhandle.trimmed ht
  api q hq := (h.api q hq).trimmed ht

/-- A broadcast reaches connections that stay, and the broken ones go. -/
theorem deliver (h : Kept classes n p) (classId : Bytes) (newState : PathState) (iface : Bytes)
    (rssiDbm : Int32) (results : Nat → Nat → Int) :
    Kept classes n (p.step (.deliver classId newState iface rssiDbm results)) := by
  simp only [ConsumerSystem.step]
  set msg := ConsumerApiServer.pathEvent classId newState iface rssiDbm
  set fds := (p.server.receivers classId).map (·.fd)
  set broken := fds.filter fun fd => !(trySendMsg (results fd) msg).2
  have htrimmed : Trimmed p.server (p.server.dropAllBroken broken).1 :=
    .dropAllBroken h.counted.valid broken
  refine ⟨h.counted.trimmed htrimmed, fun x c hc => ?_, fun x c hc => ?_,
    fun q hq => (h.api q hq).trimmed htrimmed⟩
  · dsimp only at hc
    split_ifs at hc with hx hreached
    · obtain ⟨c', hc', -⟩ := Option.map_eq_some_iff.mp hc
      rw [ConsumerApiServer.clients_dropAllBroken]
      exact List.mem_diff_of_mem (h.connected x c' hc') hx
    · rw [ConsumerApiServer.clients_dropAllBroken]
      exact List.mem_diff_of_mem (h.connected x c hc) hx
  · refine Peer.Holds.mono ?_ fun _ hhandle => Harmless.trimmed hhandle htrimmed
    dsimp only at hc
    split_ifs at hc with hx hreached
    · obtain ⟨c', hc', rfl⟩ := Option.map_eq_some_iff.mp hc
      -- a path event has handle 0, and all of it is sent to a connection that stays
      have hsent : (trySendMsg (results x) msg).2 = true := by
        by_contra hfails
        exact hx (List.mem_filter.mpr ⟨hreached, by simpa using hfails⟩)
      have hzero : Harmless p.server x msg.handle := harmless_zero h.counted
      rw [trySendMsg_eq_encode hsent]
      exact (h.peers x c' hc').deliver (.frame hzero)
    · exact h.peers x c hc

theorem step (h : Kept classes n p) {e : Event} (he : e.ReplyTaken)
    (hn : n + p.registrations e < 2 ^ 64 - 1) :
    Kept classes (n + p.registrations e) (p.step e) := by
  cases e with
  | connect fd kind pid classId =>
    simp only [ConsumerSystem.step, registrations, Nat.add_zero]
    split
    · have hopen : fd ∈ (p.server.handleAccept fd).clients := by
        unfold ConsumerApiServer.handleAccept
        split
        · assumption
        · simp
      have haccepted : Kept classes n { p with server := p.server.handleAccept fd } :=
        h.trimmed .handleAccept fun x c hc => by
          have hx := h.connected x c hc
          unfold ConsumerApiServer.handleAccept
          split
          · exact hx
          · exact List.mem_append_left _ hx
      exact haccepted.setPeer hopen ⟨by simp, .nil⟩
    · exact h
  | consumer fd call =>
    exact h.consumer fd fun c hc => hc.step (harmless_zero h.counted) call
  | downloadDone fd => exact h.consumer fd fun c hc => hc.downloadDone
  | receive fd results =>
    simp only [ConsumerSystem.step, registrations] at hn ⊢
    cases hapi : p.api with
    | pushed | sampled => simpa [hapi] using h
    | idle =>
      cases hc : p.peers fd with
      | none => simpa [hapi, hc] using h
      | some c =>
        cases hto : c.toServer with
        | nil => simpa [hapi, hc, hto] using h
        | cons msg toServer =>
          obtain ⟨hmsg, hrest⟩ := (h.peers fd c hc).request hto
          simp only [hapi, hc, hto] at hn ⊢
          refine h.receive (h.connected fd c hc) hrest hmsg he ?_
          by_cases hreg : msg.type = MsgType.register.code ∧
              (p.server.findClass msg.classId.toString).isSome
          · exact .inl (by simpa [hreg] using hn)
          · exact .inr hreg
  | sample =>
    simp only [ConsumerSystem.step, registrations, Nat.add_zero]
    split
    · next fd handle classId hapi =>
      refine h.setApi fun q hq => ?_
      obtain rfl := List.mem_singleton.mp hq
      have hissued := h.api (fd, handle) (by simp [hapi, ApiPoint.handles])
      simpa using hissued
    · exact h
  | reply results =>
    simp only [ConsumerSystem.step, registrations, Nat.add_zero]
    split
    · next fd ack hapi =>
      have hissued := h.api (fd, ack.handle) (by simp [hapi, ApiPoint.handles])
      have hack : WholeMessages (Harmless p.server fd) (sendMsg results ack) := by
        rw [sendMsg_eq_encode_iff.mpr he]
        exact .frame hissued
      exact (h.sendTo hack).setApi fun q hq => by cases hq
    · exact h
  | hangUp fd =>
    simp only [ConsumerSystem.step, registrations, Nat.add_zero]
    cases hapi : p.api with
    | pushed | sampled => simpa [hapi] using h
    | idle =>
      cases hc : p.peers fd with
      | none => simpa [hapi, hc] using h
      | some c =>
        have hregistry : (p.server.removeClient fd).1.registry =
            (p.server.dropEntry (·.fd = fd)).1.registry := by
          simp only [ConsumerApiServer.removeClient, ConsumerApiServer.dropEntry_registry]
          rfl
        have hclients := ConsumerApiServer.clients_removeClient p.server fd
        have htrimmed : Trimmed p.server (p.server.removeClient fd).1 :=
          .closeDropped h.counted.valid (Trimmed.dropEntry (p := (·.fd = fd))).classIds
            ConsumerApiServer.nextHandle_dropEntry hregistry hclients
        simpa [ConsumerSystem.setPeer, hapi] using h.hangUp htrimmed hclients
  | cache classId newState iface rssiDbm =>
    exact h.trimmed
      ⟨ConsumerApiServer.classIds_cachePathEvent, rfl, .refl _, fun _ _ hopen => hopen,
        fun hnodup => hnodup⟩ h.connected
  | deliver classId newState iface rssiDbm results =>
    exact h.deliver classId newState iface rssiDbm results

/-! ### What a step takes away -/

theorem others_receive {c : Peer} {msg : ApiMsg} (hmsg : Harmless p.server fd msg.handle)
    (results : Nat → Int) :
    (p.receive fd c msg results).server.others fd = p.server.others fd := by
  unfold ConsumerSystem.receive
  dsimp only
  split
  · simp [ConsumerApiServer.others, ConsumerApiServer.pushEntry]
  · refine ((ConsumerApiServer.confined_iff _ fd msg).mpr fun _ e he => ?_).others
    exact hmsg.2 e (List.mem_of_find?_eq_some he) (by simpa using List.find?_some he)

theorem keepsOthers (h : Kept classes n p) (e : Event) : p.KeepsOthers e := by
  intro entry hentry
  cases e with
  | connect fd kind pid classId =>
    simp only [ConsumerSystem.step]
    split
    · exact .inl (by simpa [ConsumerApiServer.handleAccept, apply_ite] using hentry)
    · exact .inl hentry
  | consumer | downloadDone | cache => exact .inl hentry
  | sample =>
    simp only [ConsumerSystem.step]
    split <;> exact .inl hentry
  | reply results =>
    simp only [ConsumerSystem.step]
    split <;> exact .inl hentry
  | receive fd results =>
    refine or_iff_not_imp_right.mpr fun hfd => ?_
    simp only [ConsumerSystem.step]
    split
    · next c hapi hc =>
      split
      · next msg toServer hto =>
        have hmsg := ((h.peers fd c hc).request hto).1
        have hother : entry ∈ p.server.others fd := by
          simpa [ConsumerApiServer.others, hentry] using fun heq => hfd heq.symm
        rw [← others_receive hmsg results] at hother
        exact List.mem_of_mem_filter hother
      · exact hentry
    · exact hentry
  | hangUp fd =>
    refine or_iff_not_imp_right.mpr fun hfd => ?_
    simp only [ConsumerSystem.step]
    split
    · simp only [ConsumerApiServer.removeClient, ConsumerApiServer.dropEntry_registry]
      exact (List.mem_eraseP_of_neg (by simpa using fun heq => hfd heq.symm)).mpr hentry
    · exact hentry
  | deliver classId newState iface rssiDbm results =>
    refine or_iff_not_imp_right.mpr fun hsent => ?_
    refine mem_dropAllBroken hentry fun hbroken => hsent ?_
    simpa [Event.Of] using (List.mem_filter.mp hbroken).2

/-- With fewer registrations than there are handles, none is another's throughout a run. -/
theorem run (h : Kept classes n p) {events : List Event} (htaken : ∀ e ∈ events, e.ReplyTaken)
    (hn : n + total ConsumerSystem.step registrations p events < 2 ^ 64 - 1) :
    Throughout ConsumerSystem.step (fun p => ∃ n, Kept classes n p) p events := by
  induction events generalizing p n with
  | nil => exact ⟨n, h⟩
  | cons e events ih =>
    rw [total_cons] at hn
    obtain ⟨he, hevents⟩ := List.forall_mem_cons.mp htaken
    exact ⟨⟨n, h⟩, ih (h.step he (by omega)) hevents (by omega)⟩

end Kept

theorem kept_fresh (classes : List PathClassConfig) : Kept classes 0 (fresh classes) where
  counted := ConsumerApiServer.ofClasses_counted classes
  connected fd c hc := by simp [fresh] at hc
  peers fd c hc := by simp [fresh] at hc
  api q hq := by simp [fresh, ApiPoint.handles] at hq

/-- While the handles last and the kernel takes all of every reply, however the consumers, the API
thread and the broadcasts are interleaved: no `Unregister` of a consumer names the registration of
another, and a registration ends by messages or by the end of its own connection only. -/
theorem consumers_keep_others (classes : List PathClassConfig) (events : List Event)
    (hcount : total step registrations (fresh classes) events < 2 ^ 64 - 1)
    (htaken : ∀ e ∈ events, e.ReplyTaken) :
    Throughout step Confined (fresh classes) events ∧
      StepsMeet step KeepsOthers (fresh classes) events := by
  have hkept := (kept_fresh classes).run htaken (by rwa [Nat.zero_add])
  refine ⟨hkept.mono fun p ⟨n, h⟩ => h.confined, ?_⟩
  exact hkept.stepsMeet.mono fun p e ⟨⟨n, h⟩, _⟩ => h.keepsOthers e

/-- Two consumers of `multipath`. The second one is told that the path is up before its answer,
takes that for the answer and later names handle 0. -/
theorem consumers_keep_others_two :
    let all : Nat → Int := fun _ => 96
    let register (fd : Nat) : List Event :=
      [.connect fd (.mock 0) 100 (Bytes.ascii "multipath"), .consumer fd .returns, .receive fd all]
    let events : List Event := register 7 ++ [.sample, .reply all, .consumer 7 .returns] ++
      register 8 ++
      [.deliver (Bytes.ascii "multipath") .pathUp (Bytes.ascii "eth0.100") 0 fun _ => all,
        .sample, .reply all, .consumer 8 .returns, .consumer 8 .returns, .consumer 8 .returns,
        .receive 8 all]
    (StateMachine.run step (fresh pathPolicies) events).server.registry.map (·.fd) = [7, 8] ∧
      Throughout step Confined (fresh pathPolicies) events := by
  intro all register events
  refine ⟨by decide +kernel, (consumers_keep_others pathPolicies events (by decide +kernel) ?_).1⟩
  simp [events, register, Event.ReplyTaken, TakesAll, all]

/-- The kernel takes 8 bytes of the answer to the eighth registration. With the path event behind
them the consumer reads handle 7, and its `Unregister` ends the seventh registration. -/
theorem cut_reply_takes_other :
    let all : Nat → Int := fun _ => 96
    let register (fd : Nat) (results : Nat → Int) : List Event :=
      [.connect fd (.mock 0) 100 (Bytes.ascii "multipath"), .consumer fd .returns, .receive fd all,
        .sample, .reply results]
    let events : List Event := (List.range 7).flatMap (fun i => register (11 + i) all) ++
      register 18 (fun i => if i = 0 then 8 else -1) ++
      [.deliver (Bytes.ascii "multipath") .pathUp (Bytes.ascii "eth0.100") 0 fun _ => all,
        .consumer 18 .returns, .consumer 18 .returns, .consumer 18 .returns, .receive 18 all]
    (StateMachine.run step (fresh pathPolicies) events).server.registry.map (·.fd) =
      [11, 12, 13, 14, 15, 16, 18] := by
  decide +kernel

end ConsumerSystem
end WifiOffload
