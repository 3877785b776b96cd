import WifiOffload.Common.Types

/-!
# The wire format of the consumer API

`ApiMsg` and its 96 bytes: the integers in the byte order of the target, little-endian, then the
two character arrays.
-/

namespace WifiOffload

inductive MsgType where
  | register | registerAck | unregister | unregisterAck | queryCurrent | queryAck | pathEvent
  deriving DecidableEq, Repr

/-- `static_cast<uint32_t>` of a `MsgType`. -/
def MsgType.code : MsgType → UInt32
  | .register => 1
  | .registerAck => 2
  | .unregister => 3
  | .unregisterAck => 4
  | .queryCurrent => 5
  | .queryAck => 6
  | .pathEvent => 7

/-- The type of the answer to a request of a type; a request of no known type is refused. -/
def MsgType.answer (type : UInt32) : UInt32 :=
  if type = MsgType.unregister.code then MsgType.unregisterAck.code
  else if type = MsgType.queryCurrent.code then MsgType.queryAck.code
  else MsgType.registerAck.code

theorem MsgType.answer_ne_pathEvent (type : UInt32) :
    MsgType.answer type ≠ MsgType.pathEvent.code := by
  unfold MsgType.answer
  split_ifs <;> decide

structure ApiMsg where
  type : UInt32 := 0
  error : UInt32 := 0
  handle : UInt64 := 0
  pid : Int32 := 0
  rssi : Int32 := 0
  state : UInt32 := 0
  pad : UInt32 := 0
  classId : CharArray 32 := CharArray.zero 32
  iface : CharArray 32 := CharArray.zero 32
  deriving DecidableEq

namespace ApiMsg

/-- `sizeof(ApiMsg)`. -/
def size : Nat := 96

def encode (m : ApiMsg) : Bytes :=
  Bytes.le 4 m.type.toNat ++ (Bytes.le 4 m.error.toNat ++ (Bytes.le 8 m.handle.toNat ++
    (Bytes.le 4 m.pid.toUInt32.toNat ++ (Bytes.le 4 m.rssi.toUInt32.toNat ++
      (Bytes.le 4 m.state.toNat ++ (Bytes.le 4 m.pad.toNat ++ (m.classId.val ++ m.iface.val)))))))

def decode (bs : Bytes) : ApiMsg :=
  let (type, bs) := Bytes.readLE 4 bs
  let (error, bs) := Bytes.readLE 4 bs
  let (handle, bs) := Bytes.readLE 8 bs
  let (pid, bs) := Bytes.readLE 4 bs
  let (rssi, bs) := Bytes.readLE 4 bs
  let (state, bs) := Bytes.readLE 4 bs
  let (pad, bs) := Bytes.readLE 4 bs
  { type := .ofNat type, error := .ofNat error, handle := .ofNat handle
    pid := (UInt32.ofNat pid).toInt32, rssi := (UInt32.ofNat rssi).toInt32
    state := .ofNat state, pad := .ofNat pad
    classId := CharArray.ofBytes 32 bs, iface := CharArray.ofBytes 32 (bs.drop 32) }

@[simp] theorem length_encode (m : ApiMsg) : m.encode.length = size := by
  simp [encode, m.classId.2, m.iface.2, size]

/-- What was written is what is read. -/
theorem decode_encode (m : ApiMsg) : decode m.encode = m := by
  have h32 (n : UInt32) : UInt32.ofNat (n.toNat % 256 ^ 4) = n := by
    have hlt : n.toNat < 256 ^ 4 := UInt32.toNat_lt n
    rw [Nat.mod_eq_of_lt hlt, UInt32.ofNat_toNat]
  have h64 (n : UInt64) : UInt64.ofNat (n.toNat % 256 ^ 8) = n := by
    have hlt : n.toNat < 256 ^ 8 := UInt64.toNat_lt n
    rw [Nat.mod_eq_of_lt hlt, UInt64.ofNat_toNat]
  have hclass : CharArray.ofBytes 32 (m.classId.val ++ m.iface.val) = m.classId :=
    CharArray.ofBytes_append m.classId m.iface.val
  have hiface : CharArray.ofBytes 32 ((m.classId.val ++ m.iface.val).drop 32) = m.iface := by
    have hdrop : (m.classId.val ++ m.iface.val).drop 32 = m.iface.val := by
      have hlen := m.classId.2
      rw [List.drop_append_of_le_length (by omega), List.drop_of_length_le (by omega),
        List.nil_append]
    rw [hdrop]
    exact CharArray.ofBytes_val m.iface
  simp only [decode, encode, Bytes.readLE_append, h32, h64, hclass, hiface, Int32.toInt32_toUInt32]

end ApiMsg

/-- A request to register a process for a class. -/
def registerMsg (pid : Int32) (classId : String) : ApiMsg :=
  { type := MsgType.register.code, pid, classId := CharArray.strncpy 32 (Bytes.ascii classId) }

/-- A request to end the registration with a handle. -/
def unregisterMsg (handle : UInt64) : ApiMsg := { type := MsgType.unregister.code, handle }

end WifiOffload
