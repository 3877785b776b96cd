import WifiOffload.Library.TextFields
import WifiOffload.Library.Words

/-!
# The gateway of an interface

`RoutingPolicyManager::queryGatewayForIface` and the table that it reads. On a little-endian host
the kernel prints an address as the word whose bytes in memory are the address in network order,
so that the word of the column is ready for `RTA_GATEWAY`; `htonl` turns its bytes around. The
first row with `Destination` 0 is taken, whatever its mask is and also where it has no gateway.
-/

namespace WifiOffload

open Word

namespace RoutingPolicyManager

/-- One turn of the loop: what is returned, or nothing where it continues. -/
def gatewayOfLine (bits : Nat) (iface line : Bytes) : Option UInt32 :=
  match Bytes.columns line with
  | dev :: dst :: gw :: _ =>
    if dev ≠ iface then none
    -- not the default route
    else if dst ≠ Bytes.ascii "00000000" then none
    else
      match Strtoul.stoulHex bits gw with
      | .error _ => none
      | .ok gwHex => some (htonl (UInt32.ofNat gwHex))
  | _ => none

/-- `queryGatewayForIface`; the file is missing where `/proc/net/route` cannot be opened. -/
def queryGatewayForIface (bits : Nat) (file : Option Bytes) (iface : Bytes) : UInt32 :=
  match file with
  | none => 0
  -- skip header
  | some text => ((Bytes.lines text).tail.findSome? (gatewayOfLine bits iface)).getD 0

end RoutingPolicyManager

/-! ## The kernel's table -/

/-- A row of the kernel's IPv4 routes. An address is its bytes in network order. -/
structure RouteRow where
  dev : Bytes
  destination : CharArray 4
  gateway : CharArray 4
  mask : CharArray 4
  /-- The columns from `Flags` to `Metric`. -/
  counters : Bytes
  /-- The columns behind `Mask`. -/
  limits : Bytes
  dev_ne_nil : dev ≠ []
  dev_word : ∀ b ∈ dev, Strtoul.isSpace b = false
  counters_line : 10 ∉ counters
  limits_line : 10 ∉ limits

namespace RouteRow

/-- The row as it is printed, each address with `%08X`. -/
def line (r : RouteRow) : Bytes :=
  r.dev ++ 9 :: (hex (ofMemory r.destination) ++ 9 :: (hex (ofMemory r.gateway) ++ 9 ::
    (r.counters ++ 9 :: (hex (ofMemory r.mask) ++ 9 :: r.limits))))

/-- A row of the interface with `Destination` 0. -/
def HasZeroDestination (iface : Bytes) (r : RouteRow) : Prop :=
  r.dev = iface ∧ r.destination = .zero 4

/-- A default route of the interface with a gateway. -/
def IsDefaultRoute (iface : Bytes) (r : RouteRow) : Prop :=
  r.dev = iface ∧ r.destination = .zero 4 ∧ r.mask = .zero 4 ∧ r.gateway ≠ .zero 4

instance (iface : Bytes) (r : RouteRow) : Decidable (HasZeroDestination iface r) :=
  inferInstanceAs (Decidable (_ ∧ _))

instance (iface : Bytes) (r : RouteRow) : Decidable (IsDefaultRoute iface r) :=
  inferInstanceAs (Decidable (_ ∧ _))

end RouteRow

def routeHeader : Bytes :=
  Bytes.ascii "Iface\tDestination\tGateway \tFlags\tRefCnt\tUse\tMetric\tMask\t\tMTU\tWindow\tIRTT"

/-- `/proc/net/route`. -/
def procNetRoute (rows : List RouteRow) : Bytes :=
  routeHeader ++ 10 :: rows.flatMap fun r => r.line ++ [10]

def zeroDestination? (rows : List RouteRow) (iface : Bytes) : Option RouteRow :=
  rows.find? (RouteRow.HasZeroDestination iface)

def defaultRoute? (rows : List RouteRow) (iface : Bytes) : Option RouteRow :=
  rows.find? (RouteRow.IsDefaultRoute iface)

/-! ## Reading the printed table -/

theorem hex_ofMemory_eq_zero_iff {a : CharArray 4} :
    hex (ofMemory a) = Bytes.ascii "00000000" ↔ a = .zero 4 := by
  have hzero : hex (ofMemory (.zero 4)) = Bytes.ascii "00000000" := by decide
  rw [← hzero, hex_injective.eq_iff, ofMemory_injective.eq_iff]

namespace RouteRow

theorem columns_line (r : RouteRow) : ∃ columns, Bytes.columns r.line =
    r.dev :: hex (ofMemory r.destination) :: hex (ofMemory r.gateway) :: columns := by
  rw [line, Bytes.columns_append r.dev_ne_nil r.dev_word,
    Bytes.columns_append (hex_ne_nil _) fun _ => isSpace_of_mem_hex,
    Bytes.columns_append (hex_ne_nil _) fun _ => isSpace_of_mem_hex]
  exact ⟨_, rfl⟩

theorem newline_not_mem_line (r : RouteRow) : 10 ∉ r.line := by
  have hdev : 10 ∉ r.dev := fun h => absurd (r.dev_word 10 h) (by decide)
  have hhex (w : UInt32) : 10 ∉ hex w := fun h => absurd (isSpace_of_mem_hex h) (by decide)
  simp [line, hdev, hhex, r.counters_line, r.limits_line]

end RouteRow

theorem lines_procNetRoute (rows : List RouteRow) :
    Bytes.lines (procNetRoute rows) = routeHeader :: rows.map RouteRow.line := by
  have hrows : Bytes.lines (rows.flatMap fun r => r.line ++ [10]) = rows.map RouteRow.line := by
    induction rows with
    | nil => rfl
    | cons r rows ih =>
      rw [List.flatMap_cons, List.append_assoc, List.singleton_append,
        Bytes.lines_append r.newline_not_mem_line, ih, List.map_cons]
  have hheader : 10 ∉ routeHeader := by decide
  rw [procNetRoute, Bytes.lines_append hheader, hrows]

namespace RoutingPolicyManager

variable {bits : Nat} (rows : List RouteRow) (iface : Bytes)

/-- A row is taken for its interface and its destination alone. -/
theorem gatewayOfLine_line (hbits : 32 ≤ bits) (r : RouteRow) :
    gatewayOfLine bits iface r.line =
      if r.HasZeroDestination iface then some (htonl (ofMemory r.gateway)) else none := by
  obtain ⟨columns, hcolumns⟩ := r.columns_line
  simp only [gatewayOfLine, hcolumns, RouteRow.HasZeroDestination]
  by_cases hdev : r.dev = iface
  · by_cases hdst : r.destination = .zero 4
    · simp [hdev, hdst, hex_ofMemory_eq_zero_iff, stoulHex_hex hbits]
    · simp [hdev, hdst, hex_ofMemory_eq_zero_iff]
  · simp [hdev]

/-- The result is the gateway of the first row of the interface with `Destination` 0, its bytes
turned around. -/
theorem queryGatewayForIface_procNetRoute (hbits : 32 ≤ bits) :
    queryGatewayForIface bits (some (procNetRoute rows)) iface =
      ((zeroDestination? rows iface).map fun r => htonl (ofMemory r.gateway)).getD 0 := by
  have hfind : (rows.map RouteRow.line).findSome? (gatewayOfLine bits iface) =
      (zeroDestination? rows iface).map fun r => htonl (ofMemory r.gateway) := by
    induction rows with
    | nil => rfl
    | cons r rows ih =>
      rw [List.map_cons, List.findSome?_cons, gatewayOfLine_line iface hbits, ih]
      by_cases hr : r.HasZeroDestination iface <;> simp [zeroDestination?, hr]
  simp only [queryGatewayForIface, lines_procNetRoute, List.tail_cons, hfind]

/-! ## When the gateway is found -/

/-- The bytes of the result in memory are the gateway of the interface's first default route that
has one, and the result is 0 exactly where there is no such route. -/
def GatewayFound (bits : Nat) (rows : List RouteRow) (iface : Bytes) : Prop :=
  (∀ d, defaultRoute? rows iface = some d →
    memory (queryGatewayForIface bits (some (procNetRoute rows)) iface) = d.gateway) ∧
  (queryGatewayForIface bits (some (procNetRoute rows)) iface = 0 ↔
    defaultRoute? rows iface = none)

/-- The first row with `Destination` 0 has the gateway of the first default route backwards, or
no gateway where there is no such route. -/
def GatewayReadsBackwards (rows : List RouteRow) (iface : Bytes) : Prop :=
  match zeroDestination? rows iface, defaultRoute? rows iface with
  | none, _ => True
  | some r, none => r.gateway = .zero 4
  | some r, some d => d.gateway = r.gateway.reverse

variable {rows iface}

theorem zeroDestination?_ne_none {d : RouteRow} (h : defaultRoute? rows iface = some d) :
    zeroDestination? rows iface ≠ none := by
  intro hnone
  have hd := List.find?_some h
  have hmem := List.mem_of_find?_eq_some h
  have hno := List.find?_eq_none.mp hnone d hmem
  simp only [decide_eq_true_eq] at hd hno
  exact hno ⟨hd.1, hd.2.1⟩

/-- Where the first row is a default route with a gateway, the gateway has to read the same from
both ends. -/
theorem gatewayReadsBackwards_iff_of_default {d : RouteRow}
    (hfirst : zeroDestination? rows iface = some d) (hd : d.IsDefaultRoute iface) :
    GatewayReadsBackwards rows iface ↔ d.gateway = d.gateway.reverse := by
  have hdefault : defaultRoute? rows iface = some d := by
    obtain ⟨-, before, after, hrows, hbefore⟩ := List.find?_eq_some_iff_append.mp hfirst
    refine List.find?_eq_some_iff_append.mpr ⟨decide_eq_true hd, before, after, hrows, ?_⟩
    intro r hr
    have hno := hbefore r hr
    grind [RouteRow.HasZeroDestination, RouteRow.IsDefaultRoute]
  simp [GatewayReadsBackwards, hfirst, hdefault]

/-- What the query returns, as it lies in memory. -/
theorem memory_queryGatewayForIface (hbits : 32 ≤ bits) :
    memory (queryGatewayForIface bits (some (procNetRoute rows)) iface) =
      ((zeroDestination? rows iface).map fun r => r.gateway.reverse).getD (.zero 4) := by
  rw [queryGatewayForIface_procNetRoute rows iface hbits]
  cases zeroDestination? rows iface with
  | none => rfl
  | some r => simp

theorem queryGatewayForIface_eq_zero_iff :
    queryGatewayForIface bits (some (procNetRoute rows)) iface = 0 ↔
      memory (queryGatewayForIface bits (some (procNetRoute rows)) iface) = .zero 4 :=
  memory_injective.eq_iff.symm

/-- The query finds the gateway of an interface exactly when turning bytes around makes it the
one that is wanted. -/
theorem gatewayFound_iff (hbits : bits = 32 ∨ bits = 64) :
    GatewayFound bits rows iface ↔ GatewayReadsBackwards rows iface := by
  have hle : 32 ≤ bits := by omega
  rw [GatewayFound, queryGatewayForIface_eq_zero_iff, memory_queryGatewayForIface hle,
    GatewayReadsBackwards]
  cases hfirst : zeroDestination? rows iface with
  | none =>
    have hnone : defaultRoute? rows iface = none := by
      by_contra hsome
      obtain ⟨d, hd⟩ := Option.ne_none_iff_exists'.mp hsome
      exact zeroDestination?_ne_none hd hfirst
    simp [hnone]
  | some r =>
    cases hdefault : defaultRoute? rows iface with
    | none => simp [CharArray.reverse_eq_zero_iff]
    | some d =>
      have hgateway : d.gateway ≠ .zero 4 := by
        have hd := List.find?_some hdefault
        exact (of_decide_eq_true hd).2.2.2
      have hnonzero : r.gateway.reverse = d.gateway → r.gateway.reverse ≠ .zero 4 :=
        fun h => h ▸ hgateway
      simpa [eq_comm] using hnonzero

/-- The default route of `eth0.100` by a gateway. -/
def eth0Default (gateway : CharArray 4) : RouteRow where
  dev := Bytes.ascii "eth0.100"
  destination := .zero 4
  gateway
  mask := .zero 4
  counters := Bytes.ascii "0003\t0\t0\t100"
  limits := Bytes.ascii "0\t0\t0"
  dev_ne_nil := by decide
  dev_word := by decide +kernel
  counters_line := by decide
  limits_line := by decide

/-- 10.0.0.10 reads the same from both ends. -/
theorem gatewayFound_symmetric :
    GatewayFound 64 [eth0Default ⟨[10, 0, 0, 10], rfl⟩] (Bytes.ascii "eth0.100") :=
  (gatewayFound_iff (Or.inr rfl)).mpr
    ((gatewayReadsBackwards_iff_of_default rfl (by decide)).mpr rfl)

/-- 192.168.1.1 is returned as 1.1.168.192. -/
theorem gateway_turned_around :
    ¬ GatewayFound 64 [eth0Default ⟨[192, 168, 1, 1], rfl⟩] (Bytes.ascii "eth0.100") := by
  intro h
  have hfound := h.1 (eth0Default ⟨[192, 168, 1, 1], rfl⟩) rfl
  rw [memory_queryGatewayForIface (by decide)] at hfound
  exact absurd hfound (by decide)

end RoutingPolicyManager
end WifiOffload
