import WifiOffload.Common.Types
import WifiOffload.Config.Json
import WifiOffload.Library.Strtoul

/-!
# The configuration loader

`config/config_loader.cpp`. A load ends with a value, with a `ConfigError` that it returns, or
with an exception that escapes; the text parser of `nlohmann::json` is a parameter. The loader
is modelled with every exception that its accesses could throw, so that the type tests that
precede them are part of the model.
-/

namespace WifiOffload

/-- How a load can fail: with a returned error, or with an exception. -/
inductive LoadFailure where
  | returned (e : ConfigError)
  | thrown (e : JsonException)
  deriving DecidableEq, Repr

abbrev Load := Except LoadFailure

namespace Load

def unexpected {α : Type} (e : ConfigError) : Load α := .error (.returned e)

/-- `if (!ok) return std::unexpected(e);` -/
def require (ok : Bool) (e : ConfigError) : Load Unit := if ok then .ok () else unexpected e

/-- An access that may throw. -/
def access {α : Type} : Except JsonException α → Load α
  | .ok a => .ok a
  | .error e => .error (.thrown e)

end Load

namespace ConfigLoader

open Load

/-- A required string member that must not be empty (`id`, `cgroup_path`). -/
def requiredString (j : Json) (key : Bytes) : Load Bytes := do
  require (j.contains key) .missingField
  let v ← access (j.member key)
  require v.isString .missingField
  let s ← access v.getString
  require (s ≠ []) .invalidValue
  return s

/-- `std::numeric_limits<uint32_t>::max()`. -/
def uint32Max : Nat := 2 ^ 32 - 1

def parseHexField (bits : Nat) (j : Json) (key : Bytes) : Load UInt32 := do
  require (j.contains key) .missingField
  let val ← access (j.member key)
  require val.isString .invalidValue
  let s ← access val.getString
  match Strtoul.stoul bits s with
  | .ok parsed =>
    require (parsed ≤ uint32Max) .invalidValue
    return UInt32.ofNat parsed
  -- both exceptions of `std::stoul` are caught
  | .error _ => unexpected .invalidValue

/-- A hex member that must not be zero (`classid`, `mark`). -/
def requiredHex (bits : Nat) (j : Json) (key : Bytes) : Load UInt32 := do
  let n ← parseHexField bits j key
  require (n ≠ 0) .invalidValue
  return n

def parseInterface (iface : Json) : Load Bytes := do
  require iface.isString .invalidValue
  let s ← access iface.getString
  require (s ≠ []) .invalidValue
  return s

def requiredInterfaces (j : Json) (key : Bytes) : Load (List Bytes) := do
  require (j.contains key) .missingField
  let ifaces ← access (j.member key)
  require ifaces.isArray .missingField
  require (ifaces.items ≠ []) .invalidValue
  ifaces.items.mapM parseInterface

def requiredBool (j : Json) (key : Bytes) : Load Bool := do
  require (j.contains key) .missingField
  let v ← access (j.member key)
  require v.isBoolean .missingField
  access v.getBool

/-- The table number, checked after the conversion to `int`. -/
def requiredTable (j : Json) (key : Bytes) : Load UInt32 := do
  require (j.contains key) .missingField
  let v ← access (j.member key)
  require v.isNumberInteger .missingField
  let rt ← access v.getInt
  require (1 ≤ rt ∧ rt ≤ 65534) .invalidValue
  return UInt32.ofNat rt.toNat

def optionalBool (j : Json) (key : Bytes) : Load Bool :=
  if j.contains key then do
    let v ← access (j.member key)
    require v.isBoolean .invalidValue
    access v.getBool
  else return false

/-- A threshold member; anything but an integer is ignored. -/
def thresholdOr (j : Json) (key : Bytes) (default : Int) : Load Int :=
  if j.contains key then do
    let v ← access (j.member key)
    if v.isNumberInteger then access v.getInt else return default
  else return default

def parseRssiThresholds (j : Json) : Load RssiThresholds := do
  let defaults : RssiThresholds := {}
  let connectMin ← thresholdOr j (Bytes.ascii "connect_min") defaults.connectMin
  let warn ← thresholdOr j (Bytes.ascii "warn") defaults.warn
  let drop ← thresholdOr j (Bytes.ascii "drop") defaults.drop
  return { connectMin, warn, drop }

def optionalRssi (j : Json) (key : Bytes) : Load RssiThresholds :=
  if j.contains key then do
    let v ← access (j.member key)
    require v.isObject .invalidValue
    let rssi ← parseRssiThresholds v
    require (rssi.drop < rssi.warn) .invalidValue
    return rssi
  else return {}

def parsePathClass (bits : Nat) (j : Json) : Load PathClassConfig := do
  let id ← requiredString j (Bytes.ascii "id")
  let classid ← requiredHex bits j (Bytes.ascii "classid")
  let cgroupPath ← requiredString j (Bytes.ascii "cgroup_path")
  let interfaces ← requiredInterfaces j (Bytes.ascii "interfaces")
  let mptcpEnabled ← requiredBool j (Bytes.ascii "mptcp_enabled")
  let routingTable ← requiredTable j (Bytes.ascii "routing_table")
  let mark ← requiredHex bits j (Bytes.ascii "mark")
  let strictIsolation ← optionalBool j (Bytes.ascii "strict_isolation")
  let rssi ← optionalRssi j (Bytes.ascii "rssi")
  return { id, classid, cgroupPath, interfaces, mptcpEnabled, routingTable, mark,
           strictIsolation, rssi }

/-- The keys of the classes checked so far. -/
structure Seen where
  ids : List Bytes := []
  classids : List UInt32 := []
  marks : List UInt32 := []
  tables : List UInt32 := []

def Seen.insert (seen : Seen) (cls : PathClassConfig) : Seen :=
  { ids := cls.id :: seen.ids, classids := cls.classid :: seen.classids,
    marks := cls.mark :: seen.marks, tables := cls.routingTable :: seen.tables }

def validateFrom (seen : Seen) : List PathClassConfig → Load Unit
  | [] => return
  | cls :: classes => do
    require (cls.id ∉ seen.ids) .invalidValue
    require (cls.classid ∉ seen.classids) .invalidValue
    require (cls.mark ∉ seen.marks) .invalidValue
    require (cls.routingTable ∉ seen.tables) .invalidValue
    validateFrom (seen.insert cls) classes

def validateClasses (classes : List PathClassConfig) : Load Unit := validateFrom {} classes

/-- `loadFromFile` from the parsed document on. -/
def loadRoot (bits : Nat) (root : Json) : Load (List PathClassConfig) := do
  require (root.contains (Bytes.ascii "path_classes")) .invalidSchema
  let arr ← access (root.member (Bytes.ascii "path_classes"))
  require arr.isArray .invalidSchema
  require (arr.items ≠ []) .invalidSchema
  let classes ← arr.items.mapM (parsePathClass bits)
  validateClasses classes
  return classes

/-- `loadFromFile`: `content` is absent when the file cannot be opened. Only `parse_error` is
caught around the parser. -/
def loadFromFile (bits : Nat) (parse : Bytes → Except JsonException Json)
    (content : Option Bytes) : Load (List PathClassConfig) :=
  match content with
  | none => unexpected .fileNotFound
  | some text =>
    match parse text with
    | .error .parseError => unexpected .parseError
    | .error e => .error (.thrown e)
    | .ok root => loadRoot bits root

end ConfigLoader
end WifiOffload
