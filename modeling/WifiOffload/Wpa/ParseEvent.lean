import WifiOffload.Fsm.PathStateFsm
import WifiOffload.Library.TextFields

/-!
# Parsing the messages of `wpa_supplicant`

`stripPriority`, `parseIntField` and `WpaMonitor::parseEvent` of `wpa/wpa_monitor.cpp`. An `int`
has 32 bits. The signal fields of an event that is no `SignalChange` keep their default 0, and
so does a field whose key is missing or whose value is no number.
-/

namespace WifiOffload

/-- Strip the priority prefix, as in `<3>CTRL-EVENT-CONNECTED ...`. -/
def stripPriority (raw : Bytes) : Bytes :=
  match raw with
  | 60 :: _ => (Bytes.behind [62] raw).getD raw
  | _ => raw

/-- The value of a field `key=value`, 0 where the key is not found. -/
def parseIntField (msg key : Bytes) : Int :=
  match Bytes.behind key msg with
  | none => 0
  | some text =>
    if text = [] then 0
    -- the value extends until the next space or the end of the string
    else FromChars.fromChars (Bytes.firstWord text) 0

/-! The macros of `wpa_ctrl.h`, each with the space at its end. -/

def wpaEventConnected : Bytes := Bytes.ascii "CTRL-EVENT-CONNECTED "
def wpaEventDisconnected : Bytes := Bytes.ascii "CTRL-EVENT-DISCONNECTED "
def wpaEventTerminating : Bytes := Bytes.ascii "CTRL-EVENT-TERMINATING "
def wpaEventSignalChange : Bytes := Bytes.ascii "CTRL-EVENT-SIGNAL-CHANGE "

namespace WpaMonitor

def parseEvent (raw iface : Bytes) : WpaEvent :=
  let msg := stripPriority raw
  if wpaEventConnected <+: msg then { type := .connected, raw, iface }
  else if wpaEventDisconnected <+: msg then { type := .disconnected, raw, iface }
  else if wpaEventSignalChange <+: msg then
    { type := .signalChange, raw, iface
      rssi := parseIntField msg (Bytes.ascii "rssi=")
      avgRssi := parseIntField msg (Bytes.ascii "avg_rssi=") }
  else if wpaEventTerminating <+: msg then { type := .terminating, raw, iface }
  else { type := .other, raw, iface }

/-! ## What is parsed -/

variable {raw iface : Bytes}

/-- No message starts like two events, none of which starts like the other. -/
theorem not_both_prefix {a b msg : Bytes} (hab : ¬ a <+: b) (hba : ¬ b <+: a) (ha : a <+: msg) :
    ¬ b <+: msg := fun hb =>
  (List.prefix_or_prefix_of_prefix ha hb).elim hab hba

@[simp] theorem parseEvent_iface : (parseEvent raw iface).iface = iface := by
  grind [parseEvent]

theorem parseEvent_connected_iff :
    (parseEvent raw iface).type = .connected ↔ wpaEventConnected <+: stripPriority raw := by
  grind [parseEvent]

theorem parseEvent_signalChange_iff :
    (parseEvent raw iface).type = .signalChange ↔ wpaEventSignalChange <+: stripPriority raw := by
  constructor
  · grind [parseEvent]
  · intro h
    have hconnected := not_both_prefix (b := wpaEventConnected) (by decide) (by decide) h
    have hdisconnected := not_both_prefix (b := wpaEventDisconnected) (by decide) (by decide) h
    simp [parseEvent, hconnected, hdisconnected, h]

/-- A message that is no `SignalChange` reports no strength; a `SignalChange` reports the one
that is found behind its first `rssi=`. -/
theorem parseEvent_rssi : (parseEvent raw iface).rssi =
    if (parseEvent raw iface).type = .signalChange then
      parseIntField (stripPriority raw) (Bytes.ascii "rssi=")
    else 0 := by
  grind [parseEvent]

theorem parseEvent_avgRssi : (parseEvent raw iface).avgRssi =
    if (parseEvent raw iface).type = .signalChange then
      parseIntField (stripPriority raw) (Bytes.ascii "avg_rssi=")
    else 0 := by
  grind [parseEvent]

/-- A missing field and a field that is no number read 0. -/
theorem parseIntField_eq (msg key : Bytes) : parseIntField msg key =
    (((Bytes.behind key msg).map Bytes.firstWord).bind FromChars.int?).getD 0 := by
  unfold parseIntField
  split
  · next h => simp [h]
  · next text h =>
    split
    · next hnil => simp [h, hnil, Bytes.firstWord, FromChars.int?, FromChars.scan, Strtoul.digits]
    · simp [h, FromChars.fromChars]

end WpaMonitor
end WifiOffload
