import WifiOffload.Library.Bytes

/-!
# Shared types

The types of `common/types.hpp` and the error enumerations of `common/error.hpp`. C++ `int`
fields are integers: the conversions that can change a value are made explicit where the code
makes them, in the configuration loader.
-/

namespace WifiOffload

/-- The states of a WiFi path, in the order of their numeric codes. -/
inductive PathState where
  | idle | scanning | connecting | pathUp | pathDegraded | pathDown
  deriving DecidableEq, Repr

/-- `static_cast<uint32_t>` of a `PathState`. -/
def PathState.code : PathState → UInt32
  | .idle => 0
  | .scanning => 1
  | .connecting => 2
  | .pathUp => 3
  | .pathDegraded => 4
  | .pathDown => 5

/-- Thresholds in dBm, with the defaults of the source. -/
structure RssiThresholds where
  connectMin : Int := -70
  warn : Int := -75
  drop : Int := -85
  deriving DecidableEq, Repr

structure PathClassConfig where
  id : Bytes
  classid : UInt32
  cgroupPath : Bytes
  interfaces : List Bytes
  mptcpEnabled : Bool
  routingTable : UInt32
  mark : UInt32
  strictIsolation : Bool
  rssi : RssiThresholds
  deriving DecidableEq, Repr

inductive ConfigError where
  | fileNotFound | parseError | invalidSchema | missingField | invalidValue
  deriving DecidableEq, Repr

inductive RoutingError where
  | cgroupCreateFailed | cgroupWriteFailed | iptablesError | netlinkError
  | alreadyExists | notFound
  deriving DecidableEq, Repr

inductive ApiError where
  | socketError | invalidMessage | unknownClassId | registrationFailed
  deriving DecidableEq, Repr

/-- `static_cast<uint32_t>` of an `ApiError`. -/
def ApiError.code : ApiError → UInt32
  | .socketError => 0
  | .invalidMessage => 1
  | .unknownClassId => 2
  | .registrationFailed => 3

end WifiOffload
