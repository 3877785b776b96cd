import WifiOffload.Api.Message

/-!
# The consumer API server

`api/consumer_api_server.cpp`: the registry of consumers, the cached state of every class, the
request handlers and the broadcast of path events. A step returns the server it leaves and what
it does outside: messages, closed sockets and writes to `tasks` files. `handle` stands for
`handleClient` once a message has been read.
-/

namespace WifiOffload

structure ConsumerEntry where
  fd : Nat
  pid : Int32
  handle : UInt64
  classId : Bytes
  deriving DecidableEq

structure ClassState where
  classId : Bytes
  cgroupPath : Bytes
  state : PathState := .idle
  activeIface : Bytes := []
  rssi : Int32 := 0
  deriving DecidableEq

/-- What a step does outside the server. -/
inductive Effect where
  | send (fd : Nat) (msg : ApiMsg)
  /-- The process id is appended to the `tasks` file of the class. -/
  | assign (cls : ClassState) (pid : Int32)
  /-- The process id is appended to the `tasks` file of the root. -/
  | release (pid : Int32)
  | close (fd : Nat)
  deriving DecidableEq

namespace Effect

def messageTo (fd : Nat) : Effect → Option ApiMsg
  | .send fd' msg => if fd' = fd then some msg else none
  | _ => none

/-- The messages of a connection among what was done. -/
def messagesTo (fd : Nat) (effects : List Effect) : List ApiMsg := effects.filterMap (messageTo fd)

/-- The process that is moved. -/
def movedPid : Effect → Option Int32
  | .assign _ pid | .release pid => some pid
  | .send .. | .close _ => none

variable {fd : Nat}

@[simp] theorem messagesTo_nil : messagesTo fd [] = [] := rfl

@[simp] theorem messagesTo_append (es fs : List Effect) :
    messagesTo fd (es ++ fs) = messagesTo fd es ++ messagesTo fd fs := List.filterMap_append

@[simp] theorem messagesTo_send (fd' : Nat) (msg : ApiMsg) (es : List Effect) :
    messagesTo fd (.send fd' msg :: es) =
      if fd' = fd then msg :: messagesTo fd es else messagesTo fd es := by
  simp only [messagesTo, List.filterMap_cons, messageTo]
  split <;> simp_all

@[simp] theorem messagesTo_assign (cls : ClassState) (pid : Int32) (es : List Effect) :
    messagesTo fd (.assign cls pid :: es) = messagesTo fd es := rfl

@[simp] theorem messagesTo_release (pid : Int32) (es : List Effect) :
    messagesTo fd (.release pid :: es) = messagesTo fd es := rfl

@[simp] theorem messagesTo_close (fd' : Nat) (es : List Effect) :
    messagesTo fd (.close fd' :: es) = messagesTo fd es := rfl

end Effect

/-- The server; `clients` are the connections that the `epoll` instance watches. -/
structure ConsumerApiServer where
  classStates : List ClassState
  registry : List ConsumerEntry := []
  nextHandle : UInt64 := 1
  clients : List Nat := []

/-- A server and what it did to get there. -/
abbrev Handled := ConsumerApiServer × List Effect

namespace ConsumerApiServer

/-- The constructor. -/
def ofClasses (classes : List PathClassConfig) : ConsumerApiServer :=
  { classStates := classes.map fun cls => { classId := cls.id, cgroupPath := cls.cgroupPath } }

variable (s : ConsumerApiServer)

def findClass (classId : Bytes) : Option ClassState := s.classStates.find? (·.classId = classId)

/-- A write through the pointer that `findClass` returns. -/
def updateClass (classId : Bytes) (f : ClassState → ClassState) : ConsumerApiServer :=
  { s with classStates :=
      s.classStates.modify (s.classStates.findIdx (·.classId = classId)) f }

def updateCurrentState (classId : Bytes) (state : PathState) : ConsumerApiServer :=
  s.updateClass classId fun cls => { cls with state }

def assignCgroupPid (classId : Bytes) (pid : Int32) : List Effect :=
  match s.findClass classId with
  | none => []
  | some cls => [.assign cls pid]

def removeCgroupPid (classId : Bytes) (pid : Int32) : List Effect :=
  match s.findClass classId with
  | none => []
  | some _ => [.release pid]

/-- The first entry with `p` is erased and its process moved to the root: what `removeClient`,
`handleUnregister` and `broadcastPathEvent` do under the lock. -/
def dropEntry (p : ConsumerEntry → Bool) : Handled :=
  match s.registry.find? p with
  | none => (s, [])
  | some e => ({ s with registry := s.registry.eraseP p }, s.removeCgroupPid e.classId e.pid)

/-- `accept4`: the kernel does not hand out a descriptor that is in use. -/
def handleAccept (fd : Nat) : ConsumerApiServer :=
  if fd ∈ s.clients then s else { s with clients := s.clients ++ [fd] }

/-- The connection is taken out of `epoll` and closed. -/
def closeClient (fd : Nat) : Handled := ({ s with clients := s.clients.erase fd }, [.close fd])

def removeClient (fd : Nat) : Handled :=
  let closed := s.closeClient fd
  let dropped := closed.1.dropEntry (·.fd = fd)
  (dropped.1, closed.2 ++ dropped.2)

/-! ### Requests -/

/-- The part of `handleRegister` under the lock: an earlier entry of the connection is erased. -/
def pushEntry (fd : Nat) (pid : Int32) (classId : Bytes) : ConsumerApiServer :=
  { s with
    registry := s.registry.filter (·.fd ≠ fd) ++ [⟨fd, pid, s.nextHandle, classId⟩]
    nextHandle := s.nextHandle + 1 }

/-- The answer to a `Register`, with the state of the class at that moment. -/
def registerAck (handle : UInt64) (classId : Bytes) : ApiMsg :=
  let ack : ApiMsg :=
    { type := MsgType.registerAck.code, handle, classId := CharArray.strncpy 32 classId }
  match s.findClass classId with
  | none => ack
  | some cls => { ack with
      state := cls.state.code, iface := CharArray.strncpy 32 cls.activeIface, rssi := cls.rssi }

def handleRegister (fd : Nat) (msg : ApiMsg) : Handled :=
  let classId := msg.classId.toString
  match s.findClass classId with
  | none => (s, [.send fd
      { type := MsgType.registerAck.code, error := ApiError.unknownClassId.code }])
  | some _ =>
    let pushed := s.pushEntry fd msg.pid classId
    (pushed, pushed.assignCgroupPid classId msg.pid ++
      [.send fd (pushed.registerAck s.nextHandle classId)])

def handleUnregister (fd : Nat) (msg : ApiMsg) : Handled :=
  let ack : ApiMsg := { type := MsgType.unregisterAck.code, handle := msg.handle }
  match s.registry.find? (·.handle = msg.handle) with
  | none => (s, [.send fd { ack with error := ApiError.invalidMessage.code }])
  | some _ =>
    let dropped := s.dropEntry (·.handle = msg.handle)
    (dropped.1, dropped.2 ++ [.send fd ack])

def handleQueryCurrent (fd : Nat) (msg : ApiMsg) : Handled :=
  let classId := msg.classId.toString
  let ack : ApiMsg := { type := MsgType.queryAck.code }
  match s.findClass classId with
  | none => (s, [.send fd { ack with error := ApiError.unknownClassId.code }])
  | some cls => (s, [.send fd { ack with
      state := cls.state.code, rssi := cls.rssi, classId := CharArray.strncpy 32 classId
      iface := CharArray.strncpy 32 cls.activeIface }])

def handle (fd : Nat) (msg : ApiMsg) : Handled :=
  if msg.type = MsgType.register.code then s.handleRegister fd msg
  else if msg.type = MsgType.unregister.code then s.handleUnregister fd msg
  else if msg.type = MsgType.queryCurrent.code then s.handleQueryCurrent fd msg
  else (s, [.send fd
    { type := MsgType.registerAck.code, error := ApiError.invalidMessage.code }])

/-! ### Path events -/

def pathEvent (classId : Bytes) (newState : PathState) (iface : Bytes) (rssiDbm : Int32) : ApiMsg :=
  { type := MsgType.pathEvent.code, state := newState.code, rssi := rssiDbm
    classId := CharArray.strncpy 32 classId, iface := CharArray.strncpy 32 iface }

/-- The cache update at the start of a broadcast. -/
def cachePathEvent (classId : Bytes) (newState : PathState) (iface : Bytes) (rssiDbm : Int32) :
    ConsumerApiServer :=
  (s.updateCurrentState classId newState).updateClass classId fun cls =>
    { cls with activeIface := iface, rssi := rssiDbm }

/-- The consumers that a broadcast sends to. -/
def receivers (classId : Bytes) : List ConsumerEntry := s.registry.filter (·.classId = classId)

/-- A connection that could not be sent to is dropped. -/
def dropBroken (fd : Nat) : Handled :=
  let dropped := s.dropEntry (·.fd = fd)
  let closed := dropped.1.closeClient fd
  (closed.1, dropped.2 ++ closed.2)

def dropAllBroken (fds : List Nat) : Handled :=
  fds.foldl (fun (s, effects) fd => ((s.dropBroken fd).1, effects ++ (s.dropBroken fd).2)) (s, [])

/-- `broadcastPathEvent`; `sent` tells the connections that the message could be sent to. -/
def broadcastPathEvent (classId : Bytes) (newState : PathState) (iface : Bytes) (rssiDbm : Int32)
    (sent : Nat → Bool) : Handled :=
  let cached := s.cachePathEvent classId newState iface rssiDbm
  let msg := pathEvent classId newState iface rssiDbm
  let reached := (cached.receivers classId).filter fun e => sent e.fd
  let toRemove := ((cached.receivers classId).filter fun e => !sent e.fd).map (·.fd)
  let dropped := cached.dropAllBroken toRemove
  (dropped.1, reached.map (fun e => .send e.fd msg) ++ dropped.2)

/-- What happens to the server. Only connections that are open send and hang up. -/
inductive Event where
  | connect (fd : Nat)
  | message (fd : Nat) (msg : ApiMsg)
  | disconnect (fd : Nat)
  | broadcast (classId : Bytes) (newState : PathState) (iface : Bytes) (rssiDbm : Int32)
      (sent : Nat → Bool)

def step : Event → Handled
  | .connect fd => (s.handleAccept fd, [])
  | .message fd msg => if fd ∈ s.clients then s.handle fd msg else (s, [])
  | .disconnect fd => if fd ∈ s.clients then s.removeClient fd else (s, [])
  | .broadcast classId newState iface rssiDbm sent =>
    s.broadcastPathEvent classId newState iface rssiDbm sent

/-- `ConsumerApiServer::stop`: the connections of the registry are closed, and no process is
moved. -/
def stop (s : ConsumerApiServer) : Handled :=
  ({ s with registry := [], clients := [] }, s.registry.map fun e => .close e.fd)

end ConsumerApiServer
end WifiOffload
