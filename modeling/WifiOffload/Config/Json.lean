import WifiOffload.Library.Bytes

/-!
# JSON values

The part of `nlohmann::json` that the configuration loader uses. Integers are the 64-bit values
that the parser stores; an access to a value of the wrong type throws `type_error`.
-/

namespace WifiOffload

inductive Json where
  | null
  | boolean (b : Bool)
  | integer (n : Int)
  | float
  | string (s : Bytes)
  | array (items : List Json)
  | object (members : List (Bytes × Json))

/-- The exceptions that `nlohmann::json` can throw here. -/
inductive JsonException where
  | parseError | outOfRange | typeError
  deriving DecidableEq, Repr

namespace Json

/-- `j.contains(key)`: false on everything but an object. -/
def contains (j : Json) (key : Bytes) : Bool :=
  match j with
  | .object members => (members.lookup key).isSome
  | _ => false

/-- `j[key]`. -/
def member (j : Json) (key : Bytes) : Except JsonException Json :=
  match j with
  | .object members => .ok ((members.lookup key).getD .null)
  | _ => .error .typeError

def isString : Json → Bool
  | .string _ => true
  | _ => false

def isBoolean : Json → Bool
  | .boolean _ => true
  | _ => false

def isNumberInteger : Json → Bool
  | .integer _ => true
  | _ => false

def isArray : Json → Bool
  | .array _ => true
  | _ => false

def isObject : Json → Bool
  | .object _ => true
  | _ => false

/-- `j.get<std::string>()`. -/
def getString : Json → Except JsonException Bytes
  | .string s => .ok s
  | _ => .error .typeError

/-- `j.get<bool>()`. -/
def getBool : Json → Except JsonException Bool
  | .boolean b => .ok b
  | _ => .error .typeError

/-- `j.get<int>()`: a `static_cast` from 64 to 32 bits. -/
def getInt : Json → Except JsonException Int
  | .integer n => .ok (n.bmod (2 ^ 32))
  | _ => .error .typeError

/-- The items a range-based `for` over an array visits. -/
def items : Json → List Json
  | .array xs => xs
  | _ => []

end Json
end WifiOffload
